import InlineQuery.Proofs.Config.Settling
import InlineQuery.Proofs.Json.Accepting
import InlineQuery.Proofs.Text.Utf8
import InlineQuery.Proofs.Yaml.Composing

/-!
Configuration files that are written in JSON. They are read as YAML, which gives the value that JSON
gives where the text is portable.
-/

namespace InlineQuery.Configuration

open Json (Document Form Gap PlainText)

variable {fs : Files} {path : Path}

/-- Only objects have the value of an object. -/
theorem exists_object_of_value {f : Form} {entries : List (String × Datum)}
    (isObject : f.value = .object entries) : ∃ inner members, f = .object inner members := by
  cases f with
  | word name value isNamed =>
    rw [Form.value] at isObject
    subst isObject
    simp [Json.named, Datum.object] at isNamed
  | number n =>
    rw [Form.value, Json.Numeral.value] at isObject
    split at isObject <;> cases isObject
  | quoted q => cases isObject
  | list inner items => cases isObject
  | object inner members => exact ⟨inner, members, rfl⟩

/-- A text with a JSON object is that of a document as JSON writes it. If the document is portable, a
configuration file with the text is the configuration of the object, or has its problems. -/
theorem load_portable {text : List Char} {entries : List (String × Datum)}
    (read : Json.read text = .ok (.object entries)) :
    (∃ d : Document, d.text = text ∧ d.root.value = .object entries) ∧
      ∀ d : Document, d.text = text → d.root.value = .object entries → d.IsPortable →
        ∀ fs path, HoldsText fs path text → load fs path = ofDatum path (.object entries) := by
  refine ⟨Json.exists_document_of_read read, ?_⟩
  rintro d rfl value portable fs path holds
  obtain ⟨inner, members, isObject⟩ := exists_object_of_value value
  rw [load_eq_ofDatum holds, read_eq portable isObject, value]
  rfl

/-- A document with an entry for the schema, and the gaps in front of the key and the value and behind
the latter. -/
def schemaDocument (before afterColon behind : Gap) : Document :=
  let key : PlainText := ⟨"schemaPath", by decide⟩
  let value : PlainText := ⟨"s", by decide⟩
  ⟨.none, .object before (.member .none key.quotation .none afterColon (.quoted value.quotation)
    behind .close), .none⟩

theorem read_schemaDocument {before afterColon behind : Gap} {text : String}
    (written : (schemaDocument before afterColon behind).text = text.toList) :
    Json.read text.toList = .ok (.object [("schemaPath", .text "s")]) := by
  have isRead := Json.read_text (schemaDocument before afterColon behind)
    ⟨PlainText.isWhole_quotation _, PlainText.isWhole_quotation _, trivial⟩
  rw [← written, isRead]
  rfl

theorem load_portable_schemaPath :
    let path : Path := ⟨"/", ["w", ".graphqlconfig.json"]⟩
    let text := "\x7b\"schemaPath\": \"s\"\x7d"
    let fs : Files := ⟨⟨"/", ["w"]⟩, [(path.parts, ⟨Text.encodeUtf8 text, 1000⟩)], []⟩
    let v : Datum := .object [("schemaPath", .text "s")]
    Json.read text.toList = .ok v ∧ HoldsText fs path text.toList ∧ load fs path = ofDatum path v := by
  intro path text fs v
  let d : Document := schemaDocument .none ⟨[' '], by simp [Json.isGap]⟩ .none
  have written : d.text = text.toList := by decide
  have read : Json.read text.toList = .ok v := read_schemaDocument written
  have holds : HoldsText fs path text.toList := ⟨_, rfl, Text.decodeUtf8_encodeUtf8 text⟩
  have portable : d.IsPortable := by decide
  exact ⟨read, holds, (load_portable read).2 d written rfl portable fs path holds⟩

/-- A tab before a key is refused, though it means nothing in JSON. -/
theorem load_ne_tab :
    let path : Path := ⟨"/", ["w", ".graphqlconfig.json"]⟩
    let text := "\x7b\n\t\"schemaPath\": \"s\"\n\x7d"
    let fs : Files := ⟨⟨"/", ["w"]⟩, [(path.parts, ⟨Text.encodeUtf8 text, 1000⟩)], []⟩
    let v : Datum := .object [("schemaPath", .text "s")]
    HoldsText fs path text.toList ∧ Json.read text.toList = .ok v ∧
      (∃ config, ofDatum path v = .ok config) ∧ load fs path = .error (unreadable path) := by
  intro path text fs v
  have failed : (match load fs path with
      | .error e => some e
      | .ok _ => none) = some (unreadable path) := by decide +kernel
  have passed : (ofDatum path v).toBool = true := by decide
  have written : (schemaDocument ⟨['\n', '\t'], by simp [Json.isGap]⟩
    ⟨[' '], by simp [Json.isGap]⟩ ⟨['\n'], by simp [Json.isGap]⟩).text = text.toList := by decide
  refine ⟨⟨_, rfl, Text.decodeUtf8_encodeUtf8 text⟩, read_schemaDocument written, ?_, ?_⟩
  · cases valid : ofDatum path v with
    | ok config => exact ⟨config, rfl⟩
    | error e => rw [valid] at passed; cases passed
  · cases read : load fs path with
    | error e => rw [read] at failed; rw [Option.some.inj failed]
    | ok config => rw [read] at failed; cases failed

end InlineQuery.Configuration
