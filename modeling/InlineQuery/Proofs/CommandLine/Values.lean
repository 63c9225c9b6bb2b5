import InlineQuery.Proofs.CommandLine.Naming
import InlineQuery.Proofs.Json.Values
import InlineQuery.Proofs.Session.Posting

/-!
The values of variables on their way from the command line to a server. What is posted is read as the
operation with the values of the object, those of the items written over them.
-/

namespace InlineQuery

namespace Datum

theorem textEntries_object (entries : List (String × Datum)) :
    textEntries (entries.map fun (k, v) => (text k, v)) = entries := by
  induction entries with
  | nil => rfl
  | cons e entries ih =>
    rw [List.map_cons, textEntries, List.filterMap_cons]
    exact congrArg (e :: ·) ih

theorem isJson_object_iff {entries : List (String × Datum)} :
    (object entries).IsJson ↔ (entries.map (·.1)).Nodup ∧ ∀ e ∈ entries, e.2.IsJson := by
  refine ⟨fun json => ?_, fun ⟨distinct, each⟩ => .object distinct each⟩
  generalize same : object entries = d at json
  cases json with
  | @object others distinct each =>
    obtain rfl : entries = others := by
      rw [← textEntries_object entries, ← textEntries_object others]
      exact congrArg textEntries (Datum.map.inj same)
    exact ⟨distinct, each⟩
  | _ => cases same

end Datum

namespace CommandLine

/-! ### Values from the command line -/

section Items

variable {name text : List Char} {values : List (String × Datum)}

theorem splitItem_append (given : name ≠ []) (plain : '=' ∉ name) :
    splitItem (name ++ '=' :: text) = some (name, text) := by
  have span : (name ++ '=' :: text).span (· ≠ '=') = (name, '=' :: text) := by
    have apart : ∀ c ∈ name, decide (c ≠ '=') = true := by
      intro c member
      rw [decide_eq_true_eq]
      rintro rfl
      exact plain member
    rw [List.span_eq_takeWhile_dropWhile, List.takeWhile_append_of_pos apart,
      List.dropWhile_append_of_pos apart]
    simp
  unfold splitItem
  rw [span]
  obtain ⟨c, others, rfl⟩ := List.exists_cons_of_ne_nil given
  rfl

/-- The text of an item for a value. -/
def itemOf (item : String × Datum) : String := item.1 ++ "=" ++ Json.line item.2

/-- A name that an item can set. -/
def IsItemName (name : String) : Prop := name ≠ "" ∧ '=' ∉ name.toList

theorem putItem_itemOf {item : String × Datum} (named : IsItemName item.1) (json : item.2.IsJson)
    (values : List (String × Datum)) :
    putItem values (itemOf item) = .ok (Assoc.put values item.1 item.2) := by
  have given : item.1.toList ≠ [] := by
    intro none
    exact named.1 (String.toList_eq_nil_iff.mp none)
  have text : (itemOf item).toList = item.1.toList ++ '=' :: (Json.line item.2).toList := by
    simp [itemOf]
  unfold putItem
  rw [text, splitItem_append given named.2]
  simp only [itemValue, Json.read_line json, String.ofList_toList]
  rfl

theorem foldlM_putItem {items : List (String × Datum)} (named : ∀ i ∈ items, IsItemName i.1)
    (json : ∀ i ∈ items, i.2.IsJson) (values : List (String × Datum)) :
    (items.map itemOf).foldlM putItem values = .ok (Assoc.merge values items) := by
  induction items generalizing values with
  | nil => rfl
  | cons item items ih =>
    rw [List.map_cons, List.foldlM_cons,
      putItem_itemOf (named item (List.mem_cons_self ..)) (json item (List.mem_cons_self ..))]
    exact ih (fun i member => named i (List.mem_cons_of_mem _ member))
      (fun i member => json i (List.mem_cons_of_mem _ member)) _

/-- The values are those of the object, with those of the items written over them. -/
theorem variableValues_object {text : String} {fields items : List (String × Datum)}
    (isObject : Json.read text.toList = .ok (.object fields))
    (named : ∀ i ∈ items, IsItemName i.1) (json : ∀ i ∈ items, i.2.IsJson) :
    variableValues (some text) (items.map itemOf) = .ok (Assoc.merge fields items) := by
  have given : text ≠ "" := by
    rintro rfl
    cases isObject
  have read : valuesOf text = .ok fields := by
    rw [valuesOf, if_neg given, isObject]
    exact congrArg Except.ok (Datum.textEntries_object fields)
  have folded := foldlM_putItem named json fields
  rw [variableValues, Option.getD_some, read]
  exact folded

end Items

/-! ### What is posted -/

variable {o : ExecuteOptions} {fs : Files} {process : Environment} {id : String}

/-- What is posted for an order whose values JSON expresses is read as the order. -/
theorem read_of_posts {order : Order} {post : Post} (posted : order.Posts post)
    (distinct : (order.values.map (·.1)).Nodup) (json : ∀ e ∈ order.values, e.2.IsJson) :
    Json.read post.data.toList = .ok order.body := by
  have name : ((order.operation.name.map .text).getD .null : Datum).IsJson := by
    cases order.operation.name with
    | none => exact .null
    | some name => exact .text name
  have body : order.body.IsJson := by
    refine .object (by simp) ?_
    simpa using ⟨.text _, name, .object distinct json⟩
  have sent : Json.sent order.body = .ok (Json.line order.body) := by
    rw [Json.sent, Json.compact_of_isJson body]
    rfl
  have same : Json.line order.body = post.data := Except.ok.inj (sent.symm.trans posted)
  rw [← same, Json.read_line body]

/-- The only execution of the command has the operation that it starts and the values. -/
theorem Launch.orders_next (launch : Launch o fs process id) :
    launch.next.orders = [⟨launch.shown.handle.operation, launch.values⟩] := by
  obtain ⟨op, orders⟩ := Session.orders_execute launch.executes
  have opened : launch.opened.orders = launch.session.orders := by
    have kept := launch.session.orders_openFile fs (Path.ofString o.path)
    rwa [launch.opens] at kept
  rw [opened, Session.orders_start launch.starts, List.nil_append] at orders
  have member : launch.shown.handle.order ∈ launch.next.orders :=
    List.mem_map_of_mem (List.mem_of_getElem? launch.isShown)
  rw [orders, List.mem_singleton] at member
  have isOp : launch.shown.handle.operation = op := congrArg Order.operation member
  rw [orders, isOp]
  rfl

/-- The command posts nothing but the operation that it starts, with its values. -/
theorem Launch.sends (launch : Launch o fs process id) (net : Network) :
    net.Sends (Order.Posts ⟨launch.shown.handle.operation, launch.values⟩)
      (execute o fs process net id).2 := by
  rw [launch.execute_eq net]
  have run := Session.Sends.run launch.next net launch.number
  have settled := run.trans (Session.Sends.settle (launch.next.run launch.number) fs net)
  have disposed := settled.trans (Session.Sends.disposeView _ _ launch.number)
  refine disposed.posts.mono fun post ⟨order, member, sent⟩ => ?_
  rw [launch.orders_next, List.mem_singleton] at member
  exact member ▸ sent

/-- Whatever the command posts is read as an object with the text and the name of the operation that it
starts, and with the values of the object that it is given, those of the items written over them: of
several items for one name the last counts. The texts among the values are sequences of characters.
Half of a surrogate pair that an escape names alone is none, and `Json.charOf` reads U+FFFD for it,
so a value with such a half is not one that this speaks of. -/
theorem execute_posts_values {text : String} {fields items : List (String × Datum)}
    (given : o.values = some text) (isObject : Json.read text.toList = .ok (.object fields))
    (listed : o.items = items.map itemOf) (named : ∀ i ∈ items, IsItemName i.1)
    (json : ∀ i ∈ items, i.2.IsJson) (net : Network) :
    ∃ posts, (execute o fs process net id).2.posts = net.posts ++ posts ∧ ∀ post ∈ posts,
      ∃ op values, Starts o fs process id op ∧
        Json.read post.data.toList = .ok (.object [
          ("query", .text (String.ofList op.source)),
          ("operationName", (op.name.map .text).getD .null),
          ("variables", .object values)]) ∧
        (values.map (·.1)).Nodup ∧ ∀ name, Assoc.get? values name =
          (Assoc.get? items.reverse name).or (Assoc.get? fields name) := by
  by_cases launched : ∃ op, Starts o fs process id op
  · obtain ⟨op, launch, isOp⟩ := launched
    have values : launch.values = Assoc.merge fields items := by
      have read := launch.reads
      rw [given, listed, variableValues_object isObject named json] at read
      exact (Except.ok.inj read).symm
    obtain ⟨distinct, each⟩ := Datum.isJson_object_iff.mp (Json.isJson_of_read isObject)
    have keys := Assoc.nodup_keys_merge distinct items
    obtain ⟨posts, after, sent⟩ := launch.sends net
    refine ⟨posts, after, fun post member => ⟨op, Assoc.merge fields items, ⟨launch, isOp⟩, ?_, keys,
      Assoc.get?_merge fields items⟩⟩
    have posted := sent post member
    rw [isOp, values] at posted
    refine read_of_posts posted keys fun e member => ?_
    have found := Assoc.get?_of_mem keys member
    rw [Assoc.get?_merge, Option.or_eq_some_iff] at found
    rcases found with ofItem | ⟨-, ofField⟩
    · exact json _ (List.mem_reverse.mp (Assoc.mem_of_get? ofItem))
    · exact each _ (Assoc.mem_of_get? ofField)
  · exact ⟨[], by rw [network_of_not_launched launched, List.append_nil], by simp⟩

/-- An item that is given twice, with an equals sign and letters beyond ASCII in its first text, beside
a field of the object. -/
theorem execute_posts_values_twice :
    let fs : Files := ⟨⟨"/", ["w"]⟩, [
      (["w", ".graphqlconfig"], ⟨Text.encodeUtf8
        "\x7b\"extensions\": \x7b\"endpoints\": \x7b\"default\": \"http://a.test\"\x7d\x7d\x7d", 0⟩),
      (["w", "x.ts"], ⟨Text.encodeUtf8 "gql\x60query Q \x7b q \x7d\x60", 0⟩)], []⟩
    let text := "\x7b\"a\": 1, \"b\": [1.5]\x7d"
    let fields : List (String × Datum) :=
      [("a", .int 1), ("b", .list [.float (.finite false 6755399441055744 (-52))])]
    let items : List (String × Datum) :=
      [("a", .text "x=\"é\""), ("c", .list [.null]), ("a", .object [("é", .int (-3))])]
    let o : ExecuteOptions :=
      ⟨"x.ts", none, none, none, items.map itemOf, some text, none, none, [⟨"/", ["w"]⟩]⟩
    let net : Network := ⟨[], [], .silence, .accepted default, [], [], []⟩
    Json.read text.toList = .ok (.object fields) ∧ ∃ post op values,
      (execute o fs [] net "1").2.posts = [post] ∧ Starts o fs [] "1" op ∧
        Json.read post.data.toList = .ok (.object [
          ("query", .text (String.ofList op.source)),
          ("operationName", (op.name.map .text).getD .null),
          ("variables", .object values)]) ∧
        Assoc.get? values "a" = some (.object [("é", .int (-3))]) ∧
        Assoc.get? values "b" = some (.list [.float (.finite false 6755399441055744 (-52))]) := by
  intro fs text fields items o net
  have written : text = Json.line (.object fields) := by decide +kernel
  have isObject : Json.read text.toList = .ok (.object fields) := by
    have half : (Double.finite false 6755399441055744 (-52)).IsCanonical :=
      ⟨by decide, by decide, by decide, by decide⟩
    rw [written]
    refine Json.read_line (.object (by simp [fields]) ?_)
    simp only [fields, List.mem_cons, List.not_mem_nil, or_false]
    rintro _ (rfl | rfl)
    · exact .int (by decide)
    · exact .list (by simpa using .float half)
  have named : ∀ i ∈ items, IsItemName i.1 := by
    simp [items, IsItemName]
  have json : ∀ i ∈ items, i.2.IsJson := by
    simp only [items, List.mem_cons, List.not_mem_nil, or_false]
    rintro _ (rfl | rfl | rfl)
    · exact .text _
    · exact .list (by simpa using .null)
    · exact .object (by simp) (by simpa using .int (by decide))
  obtain ⟨posts, after, each⟩ :=
    @execute_posts_values o fs [] "1" text fields items rfl isObject rfl named json net
  have single : (execute o fs [] net "1").2.posts.length = 1 := by decide +kernel
  have after : (execute o fs [] net "1").2.posts = posts := after
  obtain ⟨post, rfl⟩ := List.length_eq_one_iff.mp (after ▸ single)
  obtain ⟨op, values, starts, read, -, found⟩ := each post (List.mem_singleton_self post)
  exact ⟨isObject, post, op, values, after, starts, read, (found "a").trans rfl,
    (found "b").trans rfl⟩

end CommandLine
end InlineQuery
