import InlineQuery.Proofs.Yaml.Blame

/-!
The tokens of a text and the tree that is composed of them. Every step moves forward in the text, and
composing adds nothing to what the tokens can fail for.
-/

namespace InlineQuery.Yaml

namespace Layout

variable {reason : Prop} {s : Layout}

theorem place_toNextToken (fuel : Nat) (s : Layout) :
    s.place.Reaches (toNextToken fuel s).place := by
  induction fuel generalizing s with
  | zero => exact .refl _
  | succ fuel ih =>
    have comment : s.place.Reaches (if s.place.skipSpaces.peek? = some '#' then
        (s.place.skipSpaces.span fun c => !isBreak c).2 else s.place.skipSpaces) := by
      split
      · exact (Place.Reaches.skipSpaces _).trans (.span _ _)
      · exact .skipSpaces _
    rw [toNextToken]
    generalize (if s.place.skipSpaces.peek? = some '#' then
      (s.place.skipSpaces.span fun c => !isBreak c).2 else s.place.skipSpaces) = p at comment ⊢
    split
    · rename_i ended
      exact comment.trans (Place.Reaches.trans (.lineEnd? ended) (ih _))
    · exact comment

theorem place_unwind (s : Layout) (column : Option Nat) : (s.unwind column).place = s.place := by
  unfold unwind
  split <;> rfl

theorem place_openBlock (s : Layout) (t : Token) : (s.openBlock t).place = s.place := by
  unfold openBlock
  split <;> rfl

theorem place_forgetKey {t : Layout} (forgets : s.forgetKey = .ok t) : t.place = s.place := by
  unfold forgetKey at forgets
  split at forgets
  · split at forgets
    · cases forgets
    · cases forgets
      rfl
  · cases forgets
    rfl

theorem reads_forgetKey (reason : Prop) (s : Layout) : Reads reason place s.place s.forgetKey := by
  unfold forgetKey
  split
  · exact .ite .malformed (.ok (.refl _))
  · exact .ok (.refl _)

theorem reads_noteKey (reason : Prop) (s : Layout) : Reads reason place s.place s.noteKey :=
  .ite (.ok (.refl _)) ((reads_forgetKey _ s).bind fun _ _ => .ok (.refl _))

theorem reads_dropStale (reason : Prop) (s : Layout) : Reads reason place s.place s.dropStale :=
  .ite .malformed (.ok (.refl _))

/-- What begins by closing block collections. -/
theorem reads_unwound {k : Layout → Except Fault Layout}
    (rest : ∀ t, s.place.Reaches t.place → Reads reason place t.place (k t)) :
    Reads reason place s.place ((s.unwind none).forgetKey.bind k) := by
  have closed := reads_forgetKey reason (s.unwind none)
  rw [place_unwind] at closed
  exact closed.bind fun t read => rest t (closed.forward t read)

theorem reads_finish (s : Layout) : Reads reason place s.place s.finish :=
  reads_unwound fun _ _ => .ok (.refl _)

theorem reads_documentMark (s : Layout) (t : Token) : Reads reason place s.place (s.documentMark t) :=
  reads_unwound fun _ _ => .ok (.skip 3 _)

theorem reads_openFlow (s : Layout) (t : Token) : Reads reason place s.place (s.openFlow t) :=
  (reads_noteKey _ s).bind fun _ _ => .ok (.next _)

theorem reads_closeFlow (s : Layout) (t : Token) : Reads reason place s.place (s.closeFlow t) :=
  (reads_forgetKey _ s).bind fun _ _ => .ite .malformed (.ok (.next _))

theorem reads_flowEntry (s : Layout) : Reads reason place s.place s.flowEntry :=
  (reads_forgetKey _ s).bind fun _ _ => .ok (.next _)

theorem place_block (s : Layout) (t : Token) :
    (if s.isFlow then s else s.openBlock t).place = s.place := by
  split
  · rfl
  · exact place_openBlock s t

theorem reads_blockEntry (s : Layout) : Reads reason place s.place s.blockEntry := by
  have opened := reads_forgetKey reason
    (if s.isFlow then s else s.openBlock .blockSequenceStart)
  rw [place_block] at opened
  exact .ite .malformed (opened.bind fun _ _ => .ok (.next _))

theorem reads_markedKey (s : Layout) : Reads reason place s.place s.markedKey := by
  have opened := reads_forgetKey reason
    (if s.isFlow then s else s.openBlock .blockMappingStart)
  rw [place_block] at opened
  exact .ite .malformed (opened.bind fun _ _ => .ok (.next _))

theorem reads_valueMark (s : Layout) : Reads reason place s.place s.valueMark := by
  unfold valueMark
  cases Assoc.get? s.keys s.depth with
  | none =>
    refine .ite .malformed (.ok ?_)
    have stays := place_block s .blockMappingStart
    exact stays ▸ Place.Reaches.next (if s.isFlow then s else s.openBlock .blockMappingStart).place
  | some k =>
    refine .ok ?_
    split <;> exact .next _

theorem reads_word {read : Place → Except Fault (Token × Place)}
    (reads : ∀ p, s.place.Reaches p → Reads reason Prod.snd p (read p)) :
    Reads reason place s.place (s.word read) := by
  have noted := reads_noteKey reason s
  exact noted.bind fun t read => (reads t.place (noted.forward t read)).bind fun _ _ => .ok (.refl _)

theorem reads_blockScalar (s : Layout) (folded : Bool) :
    Reads reason place s.place (s.blockScalar folded) :=
  (reads_forgetKey _ s).bind fun _ _ => .behind (.next _)
    ((Scalar.reads_block ..).bind fun _ _ => .ok (.refl _))

theorem reads_plainScalar (s : Layout) : Reads reason place s.place s.plainScalar :=
  (reads_noteKey _ s).bind fun _ _ => .ok (Scalar.reaches_plainWords ..)

variable {start : Place}

theorem reads_quotedScalar (reached : start.Reaches s.place) (quote : Char) :
    Reads (NamesBeyond start.rest) place s.place (s.quotedScalar quote) :=
  reads_word fun p further => ((Scalar.reads_quoted quote p).imp fun beyond =>
    beyond.mono (reached.trans further)).map fun _ => .refl _

theorem reads_readDirective (reached : start.Reaches s.place) (percent : s.place.peek? = some '%') :
    Reads (NamesBeyond start.rest) place s.place s.readDirective := by
  have closed := reads_forgetKey (NamesBeyond start.rest) (s.unwind none)
  rw [place_unwind] at closed
  refine closed.bind fun t read => ?_
  have same : t.place = s.place := (place_forgetKey read).trans (place_unwind s none)
  refine Reads.bind ((Token.reads_directive (same ▸ percent)).imp fun version => ?_)
    fun _ _ => .ok (.refl _)
  exact NamesBeyond.mono (.inr version) (same ▸ reached)

theorem reads_anchorToken (t : String → Token) (p : Place) :
    Reads reason Prod.snd p ((Token.anchorName p.next).map fun (n, q) => (t n, q)) :=
  .behind (.next p) ((Token.reads_anchorName _).map fun _ => .refl _)

theorem reads_step (s : Layout) (reached : start.Reaches s.place) :
    Reads (NamesBeyond start.rest) place s.place s.step := by
  have skipped := place_toNextToken s.place.rest.length s
  have fresh := reads_dropStale (NamesBeyond start.rest) (toNextToken s.place.rest.length s)
  refine .behind skipped (fresh.bind fun t read => ?_)
  have further : start.Reaches (t.unwind (some t.column)).place := by
    rw [place_unwind]
    exact reached.trans (skipped.trans (fresh.forward t read))
  rw [← place_unwind t (some t.column)]
  generalize t.unwind (some t.column) = u at further ⊢
  dsimp only
  split
  · exact reads_finish u
  · rename_i c r ahead
    by_cases percent : (c == '%' && decide (u.column = 0)) = true
    · rw [if_pos percent]
      have first : c = '%' := beq_iff_eq.mp (Bool.and_eq_true_iff.mp percent).1
      exact reads_readDirective further (by rw [Place.peek?, ahead, first]; rfl)
    · rw [if_neg percent]
      exact .ite (reads_documentMark ..) <| .ite (reads_documentMark ..) <|
        .ite (reads_openFlow ..) <| .ite (reads_openFlow ..) <|
        .ite (reads_closeFlow ..) <| .ite (reads_closeFlow ..) <| .ite (reads_flowEntry u) <|
        .ite (reads_blockEntry u) <| .ite (reads_markedKey u) <| .ite (reads_valueMark u) <|
        .ite (reads_word fun p _ => reads_anchorToken .alias p) <|
        .ite (reads_word fun p _ => reads_anchorToken .anchor p) <|
        .ite (reads_word fun p _ => Token.reads_tagToken p) <|
        .ite (reads_blockScalar ..) <| .ite (reads_blockScalar ..) <|
        .ite (reads_quotedScalar further _) <| .ite (reads_quotedScalar further _) <|
        .ite (reads_plainScalar u) .malformed

/-- What tokens fail for, but for a text that is none, is written in the text. -/
theorem fault_run {fuel : Nat} {failure : Failure} (reached : start.Reaches s.place)
    (failed : (run fuel s).fault = some (.value failure)) :
    NamesBeyond start.rest ∧ failure.kind.isConfiguration = false := by
  induction fuel generalizing s with
  | zero => cases failed
  | succ fuel ih =>
    rw [run] at failed
    split at failed
    · cases failed
    · have steps := reads_step s reached
      cases step : s.step with
      | ok next =>
        rw [step] at failed
        exact ih (reached.trans (steps.forward next step)) failed
      | error fault =>
        rw [step] at failed
        exact steps.blames failure (step.trans (congrArg _ (Option.some.inj failed)))

end Layout

theorem fault_ofText {text : List Char} {failure : Failure}
    (failed : (TokenStream.ofText text).fault = some (.value failure)) :
    NamesBeyond text ∧ failure.kind.isConfiguration = false := by
  unfold TokenStream.ofText at failed
  split at failed
  · refine (Layout.fault_run (.refl _) failed).imp_left fun beyond => beyond.mono ?_
    unfold Layout.start
    split
    · exact List.suffix_cons ..
    · exact List.suffix_refl _
  · cases failed

namespace Composer

variable {α β : Type}

/-- Whether a reader of tokens leaves the fault behind them as it is, and fails for nothing but that
fault and for what is no document. -/
structure Passes (m : Composer α) : Prop where
  keeps : ∀ s, match m.run s with
    | .ok (_, next) => next.fault = s.fault
    | .error fault => fault = .malformed ∨ s.fault = some fault

namespace Passes

theorem bind {m : Composer α} {k : α → Composer β} (first : Passes m) (rest : ∀ a, Passes (k a)) :
    Passes (m >>= k) := by
  refine ⟨fun s => ?_⟩
  have before := first.keeps s
  rw [StateT.run_bind]
  cases ran : m.run s with
  | error fault =>
    rw [ran] at before
    exact before
  | ok found =>
    obtain ⟨a, next⟩ := found
    rw [ran] at before
    have after := (rest a).keeps next
    dsimp only at before
    rw [before] at after
    exact after

theorem ite {c : Prop} [Decidable c] {m n : Composer α} (one : Passes m) (other : Passes n) :
    Passes (if c then m else n) := by
  split
  · exact one
  · exact other

theorem value (a : α) : Passes (pure a : Composer α) := ⟨fun _ => rfl⟩

theorem malformed : Passes (Composer.malformed : Composer α) := ⟨fun _ => .inl rfl⟩

theorem source : Passes (get : Composer Source) := ⟨fun _ => rfl⟩

theorem change {f : Source → Source} (same : ∀ s, (f s).fault = s.fault) :
    Passes (modify f : Composer Unit) := ⟨fun s => same s⟩

theorem peek? : Passes Composer.peek? := by
  refine ⟨fun s => ?_⟩
  unfold Composer.peek?
  obtain ⟨tokens, fault, anchors, handles⟩ := s
  cases tokens <;> cases fault
  · rfl
  · exact .inr rfl
  · rfl
  · rfl

theorem advance : Passes Composer.advance := change fun _ => rfl

theorem accept (t : Token) : Passes (Composer.accept t) :=
  peek?.bind fun _ => .ite (advance.bind fun _ => value _) (value _)

theorem expect (t : Token) : Passes (Composer.expect t) :=
  (accept t).bind fun _ => .ite malformed (value _)

theorem nextIn (ts : List Token) : Passes (Composer.nextIn ts) :=
  peek?.bind fun next => by cases next <;> exact value _

theorem anchor? : Passes Composer.anchor? :=
  peek?.bind fun next => by
    split
    · exact advance.bind fun _ => value _
    · exact value _

theorem tag? : Passes Composer.tag? :=
  peek?.bind fun next => by
    split
    · exact advance.bind fun _ => value _
    · exact value _

theorem properties : Passes Composer.properties := by
  refine anchor?.bind fun name => ?_
  cases name with
  | some name => exact tag?.bind fun _ => value _
  | none =>
    refine tag?.bind fun tag => ?_
    cases tag with
    | some tag => exact anchor?.bind fun _ => value _
    | none => exact value _

theorem tagName (tag : Option (Option String × String)) : Passes (Composer.tagName tag) := by
  unfold Composer.tagName
  split
  · exact value _
  · exact value _
  · refine source.bind fun s => ?_
    split
    · exact value _
    · exact malformed

theorem named (anchor : Option String) (node : Node) : Passes (Composer.bind anchor node) := by
  unfold Composer.bind
  split
  · exact value _
  · exact change fun _ => rfl

theorem requireFree (anchor : Option String) : Passes (Composer.requireFree anchor) := by
  unfold Composer.requireFree
  split
  · exact source.bind fun _ => .ite malformed (value _)
  · exact value _

end Passes

/-- What the readers of nodes and of their parts do with some fuel. -/
structure NodesPass (fuel : Nat) : Prop where
  node : ∀ context, Passes (Composer.node context fuel)
  content : ∀ context anchor name, Passes (Composer.content context anchor name fuel)
  nodeUnless : ∀ stops context, Passes (Composer.nodeUnless stops context fuel)
  blockItems : Passes (Composer.blockItems fuel)
  alignedItems : Passes (Composer.alignedItems fuel)
  blockEntries : Passes (Composer.blockEntries fuel)
  flowItems : ∀ isFirst, Passes (Composer.flowItems isFirst fuel)
  flowEntries : ∀ isFirst, Passes (Composer.flowEntries isFirst fuel)

namespace NodesPass

variable {fuel : Nat}

theorem zero : NodesPass 0 where
  node _ := .malformed
  content _ _ _ := .malformed
  nodeUnless _ _ := .malformed
  blockItems := .malformed
  alignedItems := .malformed
  blockEntries := .malformed
  flowItems _ := .malformed
  flowEntries _ := .malformed

theorem node_succ (passes : NodesPass fuel) (context : Context) :
    Passes (Composer.node context (fuel + 1)) := by
  refine Passes.peek?.bind fun next => ?_
  split
  · refine Passes.advance.bind fun _ => Passes.source.bind fun s => ?_
    split
    · exact .value _
    · exact .malformed
  · exact Passes.properties.bind fun properties => (Passes.tagName _).bind fun name =>
      Passes.peek?.bind fun _ => (Passes.requireFree _).bind fun _ =>
      (passes.content ..).bind fun node => (Passes.named ..).bind fun _ => .value _

theorem content_succ (passes : NodesPass fuel) (context : Context) (anchor name : Option String) :
    Passes (Composer.content context anchor name (fuel + 1)) := by
  have sequence {items : Composer (List Node)} (parts : Passes items) : Passes (do
      Composer.bind anchor (.again (anchor.getD "") (collectionTag name .seq))
      return Node.sequence (collectionTag name .seq) (← items)) :=
    (Passes.named ..).bind fun _ => parts.bind fun _ => .value _
  have mapping {entries : Composer (List (Node × Node))} (parts : Passes entries) : Passes (do
      Composer.bind anchor (.again (anchor.getD "") (collectionTag name .map))
      return Node.mapping (collectionTag name .map) (← entries)) :=
    (Passes.named ..).bind fun _ => parts.bind fun _ => .value _
  refine Passes.peek?.bind fun next => ?_
  split
  · exact Passes.advance.bind fun _ => .value _
  · exact Passes.advance.bind fun _ => sequence (passes.flowItems true)
  · exact Passes.advance.bind fun _ => mapping (passes.flowEntries true)
  · refine .ite (Passes.advance.bind fun _ => sequence passes.blockItems) <|
      .ite (Passes.advance.bind fun _ => mapping passes.blockEntries) <|
      .ite (sequence passes.alignedItems) <| .ite ?_ .malformed
    split <;> exact .value _

theorem nodeUnless_succ (passes : NodesPass fuel) (stops : List Token) (context : Context) :
    Passes (Composer.nodeUnless stops context (fuel + 1)) :=
  (Passes.nextIn stops).bind fun _ => .ite (.value _) (passes.node context)

/-- What is read behind the value of an entry, which may be missing. -/
theorem behindValue (passes : NodesPass fuel) (stops : List Token) (context : Context)
    {k : Node → Composer β} (rest : ∀ n, Passes (k n)) : Passes (do
      if ← accept .value then Composer.nodeUnless stops context fuel >>= k
      else pure .missing >>= k) :=
  (Passes.accept _).bind fun _ => .ite ((passes.nodeUnless ..).bind rest) ((Passes.value _).bind rest)

/-- What is read behind an entry inside brackets, if a key mark shows that it is one. -/
theorem behindEntry (passes : NodesPass fuel) (stops keyStops : List Token) (pair : Node → Node → α)
    {k : α → Composer β} {other : Composer β} (rest : ∀ a, Passes (k a)) (otherwise : Passes other) :
    Passes (do
      if ← accept .key then
        let key ← Composer.nodeUnless keyStops .flow fuel
        if ← accept .value then
          Composer.nodeUnless stops .flow fuel >>= fun value => pure (pair key value) >>= k
        else
          pure .missing >>= fun value => pure (pair key value) >>= k
      else other) :=
  (Passes.accept _).bind fun _ => .ite
    ((passes.nodeUnless ..).bind fun _ => passes.behindValue _ _ fun _ => (Passes.value _).bind rest)
    otherwise

theorem succ (passes : NodesPass fuel) : NodesPass (fuel + 1) where
  node := passes.node_succ
  content := passes.content_succ
  nodeUnless := passes.nodeUnless_succ
  blockItems := (Passes.accept _).bind fun _ => .ite
    ((passes.nodeUnless ..).bind fun _ => passes.blockItems.bind fun _ => .value _)
    ((Passes.expect _).bind fun _ => .value _)
  alignedItems := (Passes.accept _).bind fun _ => .ite
    ((passes.nodeUnless ..).bind fun _ => passes.alignedItems.bind fun _ => .value _) (.value _)
  blockEntries := (Passes.accept _).bind fun _ => .ite
    ((passes.nodeUnless ..).bind fun _ => passes.behindValue _ _ fun _ =>
      passes.blockEntries.bind fun _ => .value _)
    ((Passes.expect _).bind fun _ => .value _)
  flowItems isFirst := by
    have rest (first : Node) : Passes (do return first :: (← Composer.flowItems false fuel)) :=
      (passes.flowItems false).bind fun _ => .value _
    refine (Passes.accept _).bind fun _ => .ite (.value _) (.ite ?_ ?_)
    · exact (Passes.expect _).bind fun _ => (Passes.accept _).bind fun _ => .ite (.value _)
        (passes.behindEntry _ _ _ rest ((passes.node _).bind rest))
    · exact passes.behindEntry _ _ _ rest ((passes.node _).bind rest)
  flowEntries isFirst := by
    have rest (entry : Node × Node) : Passes (do return entry :: (← Composer.flowEntries false fuel)) :=
      (passes.flowEntries false).bind fun _ => .value _
    have lone := (passes.node .flow).bind fun key => (Passes.value (key, Node.missing)).bind rest
    refine (Passes.accept _).bind fun _ => .ite (.value _) (.ite ?_ ?_)
    · exact (Passes.expect _).bind fun _ => (Passes.accept _).bind fun _ => .ite (.value _)
        (passes.behindEntry _ _ _ rest lone)
    · exact passes.behindEntry _ _ _ rest lone

end NodesPass

theorem nodesPass (fuel : Nat) : NodesPass fuel := by
  induction fuel with
  | zero => exact .zero
  | succ fuel ih => exact ih.succ

namespace Passes

theorem directives (hasVersion : Bool) (fuel : Nat) : Passes (Composer.directives hasVersion fuel) := by
  induction fuel generalizing hasVersion with
  | zero => exact value _
  | succ fuel ih =>
    refine peek?.bind fun next => ?_
    split
    · exact .ite malformed (advance.bind fun _ => ih true)
    · exact source.bind fun _ => .ite malformed
        (advance.bind fun _ => (change fun _ => by rfl).bind fun _ => ih hasVersion)
    · exact advance.bind fun _ => ih hasVersion
    · exact value _

theorem nextIsExplicit : Passes Composer.nextIsExplicit :=
  peek?.bind fun next => by split <;> exact value _

theorem withDefaults : Passes (modify Composer.withDefaults : Composer Unit) := change fun _ => rfl

theorem root (fuel : Nat) : Passes (Composer.root fuel) := by
  have content : Passes (Composer.node .block fuel) := (nodesPass fuel).node .block
  refine nextIsExplicit.bind fun _ => .ite ?_ (withDefaults.bind fun _ => content)
  refine (directives ..).bind fun _ => (expect _).bind fun _ => withDefaults.bind fun _ =>
    peek?.bind fun _ => nextIsExplicit.bind fun _ => ?_
  exact .ite (value _) content

theorem requireEnd (fuel : Nat) : Passes (Composer.requireEnd fuel) :=
  (change fun _ => by rfl).bind fun _ => peek?.bind fun _ => .ite
    ((change fun _ => by rfl).bind fun _ => (directives ..).bind fun _ =>
      peek?.bind fun _ => malformed)
    (value _)

theorem document (fuel : Nat) : Passes (Composer.document fuel) :=
  peek?.bind fun _ => .ite (value _) ((root fuel).bind fun _ => (requireEnd fuel).bind fun _ => value _)

end Passes

end Composer

/-- A document that could be one is not composed only if its text writes what does not exist. -/
theorem compose_value {text : List Char} {failure : Failure}
    (failed : compose text = .error (.value failure)) :
    NamesBeyond text ∧ failure.kind.isConfiguration = false := by
  unfold compose at failed
  dsimp only at failed
  have passes := (Composer.Passes.document (4 * (TokenStream.ofText text).tokens.length + 4)).keeps
    ⟨(TokenStream.ofText text).tokens, (TokenStream.ofText text).fault, [], []⟩
  cases composed : (Composer.document (4 * (TokenStream.ofText text).tokens.length + 4)).run
      ⟨(TokenStream.ofText text).tokens, (TokenStream.ofText text).fault, [], []⟩ with
  | ok found => rw [composed] at failed; cases failed
  | error fault =>
    rw [composed] at failed passes
    cases failed
    exact fault_ofText (passes.resolve_left nofun)

end InlineQuery.Yaml
