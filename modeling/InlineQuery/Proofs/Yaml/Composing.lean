import InlineQuery.Proofs.Yaml.Brackets

/-!
The nodes and values of portable JSON. Its tokens are read as one document, whose value is the one
that JSON gives.
-/

namespace InlineQuery

open Json (Form Items Members Document)
open Yaml (Token Node Source Tag)

/-! ### Nodes -/

mutual

def Json.Form.node : Form → Node
  | .word name _ _ => .scalar (.ofPlain (String.ofList name)) (String.ofList name)
  | .number n => .scalar (.ofPlain (String.ofList n.text)) (String.ofList n.text)
  | .quoted q => .scalar .str q.value
  | .list _ items => .sequence .seq items.nodes
  | .object _ members => .mapping .map members.nodes

def Json.Items.nodes : Items → List Node
  | .close => []
  | .item _ value _ rest => value.node :: rest.nodes

def Json.Members.nodes : Members → List (Node × Node)
  | .close => []
  | .member _ key _ _ value _ rest => (.scalar .str key.value, value.node) :: rest.nodes

end

/-- A source with other tokens ahead. -/
def Yaml.Source.withTokens (s : Source) (ts : List Token) : Source := { s with tokens := ts }

namespace Yaml.Composer

variable {s v : Source} {t u : Token} {ts : List Token} {fuel : Nat} {context : Context}

theorem run_bind {α β : Type} {x : Composer α} {f : α → Composer β} {a : α}
    (first : x.run s = .ok (a, v)) : (x >>= f).run s = (f a).run v := by
  rw [StateT.run_bind, first]
  rfl

theorem run_peek? : peek?.run (s.withTokens (t :: ts)) = .ok (some t, s.withTokens (t :: ts)) := rfl

/-- Whether a token starts a node without an anchor and a tag. -/
def IsBare : Token → Prop
  | .scalar .. | .flowSequenceStart | .flowMappingStart => True
  | _ => False

theorem run_node {n : Node} (bare : IsBare t)
    (reads : (content context none none fuel).run (s.withTokens (t :: ts)) = .ok (n, v)) :
    (node context (fuel + 1)).run (s.withTokens (t :: ts)) = .ok (n, v) := by
  have whole : (node context (fuel + 1)).run (s.withTokens (t :: ts)) =
      (content context none none fuel >>= fun n => bind none n >>= fun _ => pure n).run
        (s.withTokens (t :: ts)) := by
    cases t <;> first | rfl | exact bare.elim
  rw [whole, run_bind reads]
  rfl

theorem run_node_scalar (text : String) (isPlain : Bool) :
    (node context (fuel + 2)).run (s.withTokens (.scalar text isPlain :: ts)) =
      .ok (.scalar (scalarTag none isPlain text) text, s.withTokens ts) :=
  rfl

theorem run_node_sequence {items : List Node} (reads : (flowItems true fuel).run (s.withTokens ts) =
    .ok (items, v)) :
    (node context (fuel + 2)).run (s.withTokens (.flowSequenceStart :: ts)) =
      .ok (.sequence .seq items, v) := by
  refine run_node trivial ?_
  have whole : (content context none none (fuel + 1)).run (s.withTokens (.flowSequenceStart :: ts)) =
      (flowItems true fuel >>= fun items => pure (.sequence .seq items)).run (s.withTokens ts) := rfl
  rw [whole, run_bind reads]
  rfl

theorem run_node_mapping {entries : List (Node × Node)}
    (reads : (flowEntries true fuel).run (s.withTokens ts) = .ok (entries, v)) :
    (node context (fuel + 2)).run (s.withTokens (.flowMappingStart :: ts)) =
      .ok (.mapping .map entries, v) := by
  refine run_node trivial ?_
  have whole : (content context none none (fuel + 1)).run (s.withTokens (.flowMappingStart :: ts)) =
      (flowEntries true fuel >>= fun entries => pure (.mapping .map entries)).run
        (s.withTokens ts) := rfl
  rw [whole, run_bind reads]
  rfl

theorem run_nodeUnless {n : Node} {stops : List Token} (apart : t ∉ stops)
    (reads : (node context fuel).run (s.withTokens (t :: ts)) = .ok (n, v)) :
    (nodeUnless stops context (fuel + 1)).run (s.withTokens (t :: ts)) = .ok (n, v) := by
  have next : (nextIn stops).run (s.withTokens (t :: ts)) = .ok (false, s.withTokens (t :: ts)) := by
    rw [nextIn, run_bind run_peek?]
    simp [apart]
    rfl
  rw [nodeUnless, run_bind next]
  exact reads

variable {w : Source} {isFirst : Bool}

theorem run_flowItems_close :
    (flowItems isFirst (fuel + 1)).run (s.withTokens (.flowSequenceEnd :: ts)) =
      .ok ([], s.withTokens ts) :=
  rfl

theorem run_flowItems_item {n : Node} {items : List Node} (bare : IsBare t)
    (reads : (node .flow fuel).run (s.withTokens (t :: ts)) = .ok (n, v))
    (later : (flowItems false fuel).run v = .ok (items, w)) :
    (flowItems isFirst (fuel + 1)).run (s.withTokens (commaTokens isFirst ++ t :: ts)) =
      .ok (n :: items, w) := by
  have whole : (flowItems isFirst (fuel + 1)).run (s.withTokens (commaTokens isFirst ++ t :: ts)) =
      (node .flow fuel >>= fun first => flowItems false fuel >>= fun rest =>
        pure (first :: rest)).run (s.withTokens (t :: ts)) := by
    cases isFirst <;> cases t <;> first | rfl | exact bare.elim
  rw [whole, run_bind reads, run_bind later]
  rfl

theorem run_flowEntries_close :
    (flowEntries isFirst (fuel + 1)).run (s.withTokens (.flowMappingEnd :: ts)) =
      .ok ([], s.withTokens ts) :=
  rfl

theorem run_flowEntries_entry {n : Node} {entries : List (Node × Node)} {key : String}
    (bare : IsBare t) (reads : (node .flow (fuel + 2)).run (s.withTokens (t :: ts)) = .ok (n, v))
    (later : (flowEntries false (fuel + 3)).run v = .ok (entries, w)) :
    (flowEntries isFirst (fuel + 4)).run
      (s.withTokens (commaTokens isFirst ++ .key :: .scalar key false :: .value :: t :: ts)) =
      .ok ((.scalar .str key, n) :: entries, w) := by
  have value : (nodeUnless [.flowEntry, .flowMappingEnd] .flow (fuel + 3)).run
      (s.withTokens (t :: ts)) = .ok (n, v) := by
    refine run_nodeUnless ?_ reads
    cases t <;> first | (simp; done) | exact bare.elim
  have whole : (flowEntries isFirst (fuel + 4)).run
      (s.withTokens (commaTokens isFirst ++ .key :: .scalar key false :: .value :: t :: ts)) =
      (nodeUnless [.flowEntry, .flowMappingEnd] .flow (fuel + 3) >>= fun value =>
        flowEntries false (fuel + 3) >>= fun rest => pure ((.scalar .str key, value) :: rest)).run
        (s.withTokens (t :: ts)) := by
    cases isFirst <;> rfl
  rw [whole, run_bind value, run_bind later]
  rfl

theorem exists_bare (f : Form) : ∃ t rest, f.tokens = t :: rest ∧ IsBare t := by
  cases f <;> exact ⟨_, _, rfl, trivial⟩

theorem length_tokens_pos (f : Form) : 0 < f.tokens.length := by
  obtain ⟨t, rest, starts, _⟩ := exists_bare f
  simp [starts]

theorem length_items_pos (items : Items) (isFirst : Bool) : 0 < (items.tokens isFirst).length := by
  cases items with
  | close => exact Nat.one_pos
  | item before value behind rest =>
    have := length_tokens_pos value
    simp only [Items.tokens, List.length_append]
    omega

mutual

/-- The tokens of a value are read as its node. -/
theorem run_node_form (f : Form) {s : Source} {ts : List Token} {fuel : Nat} {context : Context}
    (enough : 4 * f.tokens.length ≤ fuel) :
    (node context fuel).run (s.withTokens (f.tokens ++ ts)) = .ok (f.node, s.withTokens ts) := by
  have positive := length_tokens_pos f
  obtain ⟨fuel, rfl⟩ := Nat.exists_eq_add_of_le' (show 2 ≤ fuel by omega)
  cases f with
  | word name value isNamed =>
    rw [Form.tokens, Form.node, List.singleton_append, run_node_scalar, scalarTag, if_pos rfl]
  | number n =>
    rw [Form.tokens, Form.node, List.singleton_append, run_node_scalar, scalarTag, if_pos rfl]
  | quoted q =>
    rw [Form.tokens, Form.node, List.singleton_append, run_node_scalar]
    rfl
  | list inner items =>
    rw [Form.tokens, List.length_cons] at enough
    exact run_node_sequence (run_flowItems items (by omega))
  | object inner members =>
    rw [Form.tokens, List.length_cons] at enough
    exact run_node_mapping (run_flowEntries members (by omega))

/-- Those of a list's items are read as theirs. -/
theorem run_flowItems (items : Items) {isFirst : Bool} {s : Source} {ts : List Token} {fuel : Nat}
    (enough : 4 * (items.tokens isFirst).length ≤ fuel) :
    (flowItems isFirst fuel).run (s.withTokens (items.tokens isFirst ++ ts)) =
      .ok (items.nodes, s.withTokens ts) := by
  cases items with
  | close =>
    have positive : 1 ≤ fuel := Nat.le_trans (show 1 ≤ 4 by decide) enough
    obtain ⟨fuel, rfl⟩ := Nat.exists_eq_add_of_le' positive
    exact run_flowItems_close
  | item before value behind rest =>
    simp only [Items.tokens, List.length_append] at enough
    have positive := length_tokens_pos value
    obtain ⟨fuel, rfl⟩ := Nat.exists_eq_add_of_le' (show 1 ≤ fuel by omega)
    have some := length_items_pos rest false
    obtain ⟨t, first, starts, bare⟩ := exists_bare value
    have reads : (node .flow fuel).run (s.withTokens (value.tokens ++ (rest.tokens false ++ ts))) = _ :=
      run_node_form value (by omega)
    have later : (flowItems false fuel).run (s.withTokens (rest.tokens false ++ ts)) = _ :=
      run_flowItems rest (by omega)
    rw [starts, List.cons_append] at reads
    rw [Items.tokens, Items.nodes, starts, List.append_assoc, List.append_assoc, List.cons_append]
    exact run_flowItems_item bare reads later

/-- Those of an object's members are read as keys and values. -/
theorem run_flowEntries (members : Members) {isFirst : Bool} {s : Source} {ts : List Token}
    {fuel : Nat} (enough : 4 * (members.tokens isFirst).length ≤ fuel) :
    (flowEntries isFirst fuel).run (s.withTokens (members.tokens isFirst ++ ts)) =
      .ok (members.nodes, s.withTokens ts) := by
  cases members with
  | close =>
    have positive : 1 ≤ fuel := Nat.le_trans (show 1 ≤ 4 by decide) enough
    obtain ⟨fuel, rfl⟩ := Nat.exists_eq_add_of_le' positive
    exact run_flowEntries_close
  | member before key beforeColon afterColon value behind rest =>
    simp only [Members.tokens, List.length_append, List.length_cons, List.length_nil] at enough
    obtain ⟨fuel, rfl⟩ := Nat.exists_eq_add_of_le' (show 4 ≤ fuel by omega)
    obtain ⟨t, first, starts, bare⟩ := exists_bare value
    have reads : (node .flow (fuel + 2)).run
        (s.withTokens (value.tokens ++ (rest.tokens false ++ ts))) = _ :=
      run_node_form value (by omega)
    have later : (flowEntries false (fuel + 3)).run (s.withTokens (rest.tokens false ++ ts)) = _ :=
      run_flowEntries rest (by omega)
    rw [starts, List.cons_append] at reads
    rw [Members.tokens, Members.nodes, starts]
    simp only [List.append_assoc, List.cons_append, List.nil_append]
    exact run_flowEntries_entry bare reads later

end

end Yaml.Composer

/-- A portable document with an object is composed of its node. -/
theorem compose_eq {d : Document} (portable : d.IsPortable) {inner : Json.Gap} {members : Members}
    (isObject : d.root = .object inner members) :
    Yaml.compose (Text.unifyLineEnds d.text) = .ok (some d.root.node) := by
  let nothing : Source := ⟨[], none, [], []⟩
  let fuel := 4 * d.root.tokens.length + 4
  have root : (Yaml.Composer.root fuel).run (nothing.withTokens d.root.tokens) =
      .ok (d.root.node, (Yaml.Composer.withDefaults nothing).withTokens []) := by
    have reads : (Yaml.Composer.node .block fuel).run
        ((Yaml.Composer.withDefaults nothing).withTokens (d.root.tokens ++ [])) = _ :=
      Yaml.Composer.run_node_form d.root (by omega)
    rw [List.append_nil, isObject] at reads
    rw [isObject]
    exact reads
  have document : (Yaml.Composer.document fuel).run (nothing.withTokens d.root.tokens) =
      .ok (some d.root.node, (Yaml.Composer.withDefaults nothing).withTokens []) := by
    have whole : (Yaml.Composer.document fuel).run (nothing.withTokens d.root.tokens) =
        (Yaml.Composer.root fuel >>= fun root => Yaml.Composer.requireEnd fuel >>= fun _ =>
          pure (some root)).run (nothing.withTokens d.root.tokens) := by
      rw [isObject]
      rfl
    rw [whole, Yaml.Composer.run_bind root]
    rfl
  rw [Yaml.compose, ofText_eq portable isObject]
  change (Yaml.Composer.document fuel).run (nothing.withTokens d.root.tokens) >>= _ = _
  rw [document]
  rfl

/-! ### Values -/

/-- An entry of a mapping whose keys are texts. -/
def textEntry (e : String × Datum) : Datum × Datum := (.text e.1, e.2)

theorem put_textEntry (entries : List (String × Datum)) (key : String) (value : Datum) :
    Assoc.put (entries.map textEntry) (.text key) value =
      (Assoc.put entries key value).map textEntry := by
  have same (e : String × Datum) : ((textEntry e).1 == Datum.text key) = (e.1 == key) := rfl
  have held : Assoc.contains (entries.map textEntry) (.text key) = Assoc.contains entries key := by
    simp [Assoc.contains, List.any_map, Function.comp_def, same]
  unfold Assoc.put
  rw [held]
  split
  · rw [List.map_map, List.map_map]
    refine List.map_congr_left fun e _ => ?_
    simp only [Function.comp_apply, same]
    split <;> rfl
  · rw [List.map_append]
    rfl

/-- Texts are the same keys in both kinds of mappings. -/
theorem ofList_textEntry (entries : List (String × Datum)) :
    Assoc.ofList (entries.map textEntry) = (Assoc.ofList entries).map textEntry := by
  have merged (first : List (String × Datum)) : Assoc.merge (first.map textEntry)
      (entries.map textEntry) = (Assoc.merge first entries).map textEntry := by
    unfold Assoc.merge
    induction entries generalizing first with
    | nil => rfl
    | cons e entries ih =>
      rw [List.map_cons, List.foldl_cons, List.foldl_cons]
      exact (congrArg (fun es => (entries.map textEntry).foldl (fun es e => Assoc.put es e.1 e.2) es)
        (put_textEntry first e.1 e.2)).trans (ih _)
  exact merged []

/-- The keys of an object are texts, so none of its values is merged into it. -/
theorem areMergeable_members (members : Members) :
    Yaml.Node.areMergeable members.nodes = true := by
  cases members with
  | close => rfl
  | member before key beforeColon afterColon value behind rest => exact areMergeable_members rest

mutual

/-- A portable value has the value that JSON gives it. -/
theorem build_form {f : Form} (portable : f.IsPortable) (depth : Nat) :
    Yaml.build depth f.node = .ok f.value := by
  cases f with
  | word name value isNamed =>
    rw [Form.node, Yaml.build, Yaml.scalarDatum_word isNamed portable]
    rfl
  | number n =>
    rw [Form.node, Yaml.build, Yaml.scalarDatum_number portable]
    rfl
  | quoted q => rfl
  | list inner items =>
    rw [Form.node, Yaml.build, build_items portable.2]
    rfl
  | object inner members =>
    rw [Form.node, Yaml.build, build_members portable.2]
    dsimp only
    rw [if_pos (areMergeable_members members)]
    exact congrArg (fun es => Except.ok (Datum.map es)) (ofList_textEntry members.entries)

/-- So have the items of a list. -/
theorem build_items {items : Items} (portable : items.ArePortable) (depth : Nat) :
    Yaml.buildItems depth items.nodes = .ok items.values := by
  cases items with
  | close => rfl
  | item before value behind rest =>
    obtain ⟨_, isValue, _, areRest⟩ := portable
    rw [Items.nodes, Yaml.buildItems, build_form isValue, build_items areRest]
    rfl

/-- So have the members of an object, and none is merged into it. -/
theorem build_members {members : Members} (portable : members.ArePortable) (depth : Nat) :
    Yaml.buildEntries depth members.nodes =
      (.ok [], .ok (members.entries.map textEntry)) := by
  cases members with
  | close => rfl
  | member before key beforeColon afterColon value behind rest =>
    obtain ⟨_, _, _, _, _, isValue, _, areRest⟩ := portable
    rw [Members.nodes, Yaml.buildEntries, build_form isValue, build_members areRest]
    rfl

end

/-- A portable document with an object is read as JSON reads it. -/
theorem read_eq {d : Document} (portable : d.IsPortable) {inner : Json.Gap} {members : Members}
    (isObject : d.root = .object inner members) :
    Yaml.read (Text.unifyLineEnds d.text) = .ok d.root.value := by
  rw [Yaml.read, compose_eq portable isObject]
  change (Yaml.build 0 d.root.node).mapError _ = _
  rw [build_form portable.root]
  rfl

end InlineQuery
