import InlineQuery.Proofs.Text.Lines
import InlineQuery.Url

/-!
The parts of an address and the websocket address behind it. An address that was put together is
taken apart into its parts, and only the case of the letters of its scheme is lost, so that with
another scheme everything behind the scheme stays as it was.
-/

namespace InlineQuery

variable {c : Char}

theorem bounds_of_isAlpha (letter : c.isAlpha = true) : 65 ≤ c.toNat ∧ c.toNat ≤ 122 := by
  unfold Char.isAlpha Char.isUpper Char.isLower at letter
  simp only [Bool.or_eq_true, Bool.and_eq_true, decide_eq_true_eq, UInt32.le_iff_toNat_le] at letter
  rcases letter with ⟨least, most⟩ | ⟨least, most⟩
  · exact ⟨least, Nat.le_trans most (by decide)⟩
  · exact ⟨Nat.le_trans (by decide) least, most⟩

/-- Only letters have another lower case. -/
theorem toLower_of_not_isAlpha (other : c.isAlpha = false) : c.toLower = c := by
  unfold Char.toLower
  rw [dif_neg]
  rintro ⟨lower, upper⟩
  have isUpper : c.isUpper = true := decide_eq_true ⟨lower, upper⟩
  unfold Char.isAlpha at other
  rw [isUpper] at other
  cases other

theorem isAlpha_of_toLower (letter : c.toLower.isAlpha = true) : c.isAlpha = true := by
  cases isLetter : c.isAlpha with
  | true => rfl
  | false => rwa [toLower_of_not_isAlpha isLetter, isLetter] at letter

namespace Url

section Splitting

variable {p : Char → Bool} {mark : Char} {cs rest front : List Char}

/-- A text is split where the first character that satisfies a test follows others. -/
theorem splitBefore_append (none_ : ∀ c ∈ cs, p c = false) (stops : ∀ c ∈ rest.head?, p c = true) :
    splitBefore p (cs ++ rest) = (cs, rest) := by
  have kept : ∀ c ∈ cs, (!p c) = true := fun c inside => by rw [none_ c inside]; rfl
  rw [splitBefore, List.takeWhile_append_of_pos kept, List.dropWhile_append_of_pos kept]
  cases rest with
  | nil => simp
  | cons c rest =>
    simp [stops c rfl]

theorem forall_head?_append {P : Char → Prop} (first : ∀ c ∈ cs.head?, P c)
    (second : ∀ c ∈ rest.head?, P c) : ∀ c ∈ (cs ++ rest).head?, P c := by
  cases cs with
  | nil => exact second
  | cons => exact first

/-- Behind the last occurrence of a character there is what follows it without any other. -/
theorem afterLast_append (none_ : mark ∉ cs) (ends : front = [] ∨ front.getLast? = some mark) :
    afterLast mark (front ++ cs) = cs := by
  have kept : ∀ c ∈ cs.reverse, decide (c ≠ mark) = true := by
    intro c member
    rw [decide_eq_true_eq]
    rintro rfl
    exact none_ (List.mem_reverse.mp member)
  rw [afterLast, List.reverse_append, List.takeWhile_append_of_pos kept]
  rcases ends with rfl | ends
  · simp
  · obtain ⟨front, rfl⟩ := List.getLast?_eq_some_iff.mp ends
    simp

end Splitting

/-- A part behind its mark. A part that is empty has none. -/
def marked (mark : Char) (part : List Char) : List Char :=
  if part = [] then [] else mark :: part

/-- What stands behind the scheme of an address with a host. -/
def behindScheme (url : Url) : List Char :=
  [':', '/', '/'] ++ (url.host ++ (url.path ++ (marked '?' url.query ++ marked '#' url.fragment)))

/-- No part holds the mark of one that follows it, and a path starts with a slash. -/
structure AreApart (url : Url) : Prop where
  host : ∀ c ∈ url.host, c ≠ '/' ∧ c ≠ '?' ∧ c ≠ '#'
  rooted : ∀ c ∈ url.path.head?, c = '/'
  path : ∀ c ∈ url.path, c ≠ '?' ∧ c ≠ '#'
  query : '#' ∉ url.query

/-- A scheme starts with a letter. -/
def IsScheme (scheme : List Char) : Prop :=
  ∃ c more, scheme = c :: more ∧ c.isAlpha = true ∧ more.all isSchemePart = true

variable {url : Url} {mark : Char} {part rest : List Char}

theorem forall_head?_marked {P : Char → Prop} (holds : P mark) :
    ∀ c ∈ (marked mark part).head?, P c := by
  intro c member
  unfold marked at member
  split at member
  · cases member
  · cases member
    exact holds

theorem mem_marked {c : Char} (member : c ∈ marked mark part) : c = mark ∨ c ∈ part := by
  unfold marked at member
  split at member
  · cases member
  · exact List.mem_cons.mp member

theorem drop_marked (mark : Char) (part : List Char) : (marked mark part).drop 1 = part := by
  unfold marked
  split
  · rename_i empty
    rw [empty]
    rfl
  · rfl

theorem IsScheme.isSchemePart {scheme : List Char} (isScheme : IsScheme scheme) :
    ∀ c ∈ scheme, isSchemePart c = true := by
  obtain ⟨first, more, rfl, letter, parts⟩ := isScheme
  intro c member
  rcases List.mem_cons.mp member with rfl | inside
  · simp [Url.isSchemePart, Char.isAlphanum, letter]
  · exact List.all_eq_true.mp parts c inside

/-- A scheme has no delimiters, blanks and controls. -/
theorem IsScheme.notMem {scheme : List Char} (isScheme : IsScheme scheme) {c : Char}
    (other : Url.isSchemePart c = false) : c ∉ scheme := fun inside =>
  absurd (isScheme.isSchemePart c inside) (Bool.eq_false_iff.mp other)

theorem splitScheme_append {scheme : List Char} (isScheme : IsScheme scheme) (rest : List Char) :
    splitScheme (scheme ++ ':' :: rest) = (scheme.map Char.toLower, rest) := by
  have split : splitBefore (· == ':') (scheme ++ ':' :: rest) = (scheme, ':' :: rest) :=
    splitBefore_append (fun c inside => beq_false_of_ne fun same =>
      isScheme.notMem (by decide : Url.isSchemePart ':' = false) (same ▸ inside)) (by simp)
  obtain ⟨c, more, rfl, letter, parts⟩ := isScheme
  rw [splitScheme, split]
  simp [letter, parts]

/-- Nothing is removed from an address that starts with a scheme and has no tabs and line ends. -/
theorem clean_append {scheme : List Char} (isScheme : IsScheme scheme)
    (solid : ∀ c ∈ rest, c ≠ '\t' ∧ c ≠ '\r' ∧ c ≠ '\n') : clean (scheme ++ rest) = scheme ++ rest := by
  have kept : ∀ c ∈ scheme ++ rest, (c != '\t' && c != '\r' && c != '\n') = true := by
    intro c member
    have other : c ≠ '\t' ∧ c ≠ '\r' ∧ c ≠ '\n' := by
      rcases List.mem_append.mp member with inScheme | inRest
      · refine ⟨?_, ?_, ?_⟩
        all_goals
          rintro rfl
          exact isScheme.notMem (by decide) inScheme
      · exact solid c inRest
    simp [other]
  obtain ⟨c, more, rfl, letter, -⟩ := isScheme
  have visible : ¬ c.toNat ≤ 0x20 := by
    have least := (bounds_of_isAlpha letter).1
    omega
  have first : (c :: more ++ rest).dropWhile (fun c => c.toNat ≤ 0x20) = c :: more ++ rest := by
    simp [visible]
  rw [clean, first]
  exact List.filter_eq_self.mpr kept

/-- An address that was put together is taken apart into its parts, the scheme in lower case. -/
theorem parse_behindScheme (isScheme : IsScheme url.scheme) (apart : url.AreApart)
    (solid : ∀ c ∈ url.behindScheme, c ≠ '\t' ∧ c ≠ '\r' ∧ c ≠ '\n')
    (brackets : checkBrackets url.host = .ok ())
    (honest : ∀ c ∈ url.host, deceptive.contains c.toNat = false) :
    parse (url.scheme ++ url.behindScheme) =
      .ok { url with scheme := url.scheme.map Char.toLower } := by
  have scheme : splitScheme (url.scheme ++ url.behindScheme) = (url.scheme.map Char.toLower,
      '/' :: '/' :: (url.host ++ (url.path ++ (marked '?' url.query ++ marked '#' url.fragment)))) :=
    splitScheme_append isScheme _
  have host : splitBefore isDelimiter
      (url.host ++ (url.path ++ (marked '?' url.query ++ marked '#' url.fragment))) =
        (url.host, url.path ++ (marked '?' url.query ++ marked '#' url.fragment)) := by
    refine splitBefore_append (fun c inside => ?_) ?_
    · simp [isDelimiter, apart.host c inside]
    · refine forall_head?_append (fun c first => ?_)
        (forall_head?_append (forall_head?_marked rfl) (forall_head?_marked rfl))
      rw [apart.rooted c first]
      rfl
  have fragment : splitBefore (· == '#')
      (url.path ++ (marked '?' url.query ++ marked '#' url.fragment)) =
        (url.path ++ marked '?' url.query, marked '#' url.fragment) := by
    rw [← List.append_assoc]
    refine splitBefore_append (fun c inside => beq_false_of_ne ?_) (forall_head?_marked rfl)
    rcases List.mem_append.mp inside with inPath | inQuery
    · exact (apart.path c inPath).2
    · rcases mem_marked inQuery with rfl | inQuery
      · decide
      · rintro rfl
        exact apart.query inQuery
  have query : splitBefore (· == '?') (url.path ++ marked '?' url.query) =
      (url.path, marked '?' url.query) :=
    splitBefore_append (fun c inside => beq_false_of_ne (apart.path c inside).1)
      (forall_head?_marked rfl)
  have noneDeceptive : (url.host.any fun c => deceptive.contains c.toNat) = false := by
    rw [List.any_eq_false]
    intro c inside
    rw [honest c inside]
    exact Bool.false_ne_true
  unfold parse
  rw [clean_append isScheme solid, scheme]
  simp only [host, brackets, fragment, query, drop_marked]
  rw [noneDeceptive]
  rfl

/-! ### The host of an address -/

/-- A host is written without square brackets, or with brackets around an address of numbers, which
a user may precede and a port follow. -/
def IsHostPart (host : List Char) : Prop :=
  ('[' ∉ host ∧ ']' ∉ host) ∨ ∃ user address port,
    host = user ++ ('[' :: (address ++ ']' :: port)) ∧
    (user = [] ∨ user.getLast? = some '@') ∧
    checkBracketed address = .ok () ∧ '@' ∉ address ∧ ']' ∉ address ∧
    (∀ c ∈ port.head?, c = ':') ∧ '@' ∉ port

theorem IsHostPart.checkBrackets {host : List Char} (isHost : IsHostPart host) :
    checkBrackets host = .ok () := by
  rcases isHost with ⟨noOpening, noClosing⟩ |
    ⟨user, address, port, rfl, ends, valid, noUser, noBracket, mark, noOther⟩
  · simp [Url.checkBrackets, noOpening, noClosing]
  · have main : afterLast '@' (user ++ ('[' :: (address ++ ']' :: port))) =
        '[' :: (address ++ ']' :: port) :=
      afterLast_append (by simp [noUser, noOther]) ends
    have opening : splitBefore (· == '[') ('[' :: (address ++ ']' :: port)) =
        ([], '[' :: (address ++ ']' :: port)) := rfl
    have closing : splitBefore (· == ']') (address ++ ']' :: port) = (address, ']' :: port) := by
      refine splitBefore_append (fun c inside => beq_false_of_ne ?_) (by simp)
      rintro rfl
      exact noBracket inside
    have hasOpening : (user ++ ('[' :: (address ++ ']' :: port))).contains '[' = true := by simp
    have hasClosing : (user ++ ('[' :: (address ++ ']' :: port))).contains ']' = true := by simp
    rw [Url.checkBrackets, hasOpening, hasClosing]
    simp only [main, opening, closing]
    cases port with
    | nil => exact valid
    | cons c port =>
      obtain rfl := mark c rfl
      exact valid

/-! ### The websocket address behind an address -/

/-- A character that can be seen on its own in ASCII. -/
def isVisible (c : Char) : Bool := 0x21 ≤ c.toNat && c.toNat ≤ 0x7E

/-- The schemes of requests, in letters of any case, and those of the websockets behind them. -/
inductive HasSocket : List Char → List Char → Prop where
  | plain {scheme : List Char} (http : scheme.map Char.toLower = ['h', 't', 't', 'p']) :
      HasSocket scheme ['w', 's']
  | secure {scheme : List Char} (https : scheme.map Char.toLower = ['h', 't', 't', 'p', 's']) :
      HasSocket scheme ['w', 's', 's']

theorem isScheme_of_letters {scheme : List Char} (named : scheme ≠ [])
    (letters : (scheme.map Char.toLower).all Char.isAlpha = true) : IsScheme scheme := by
  have letters : ∀ c ∈ scheme, c.isAlpha = true := fun c inside =>
    isAlpha_of_toLower (List.all_eq_true.mp letters c.toLower (List.mem_map_of_mem inside))
  obtain ⟨first, more, rfl⟩ := List.exists_cons_of_ne_nil named
  refine ⟨first, more, rfl, letters first (List.mem_cons_self ..), ?_⟩
  rw [List.all_eq_true]
  intro c inside
  simp [isSchemePart, Char.isAlphanum, letters c (List.mem_cons_of_mem _ inside)]

theorem HasSocket.isScheme {scheme socket : List Char} (known : HasSocket scheme socket) :
    IsScheme scheme := by
  cases known with
  | plain http =>
    exact isScheme_of_letters (by rintro rfl; cases http) (by rw [http]; decide)
  | secure https =>
    exact isScheme_of_letters (by rintro rfl; cases https) (by rw [https]; decide)

theorem HasSocket.socketScheme_eq {scheme socket : List Char} (known : HasSocket scheme socket) :
    socketScheme (scheme.map Char.toLower) = socket := by
  cases known with
  | plain http => rw [http]; decide
  | secure https => rw [https]; decide

/-- The schemes of websockets are written in small letters and stay as they are. -/
theorem HasSocket.isSettled {scheme socket : List Char} (known : HasSocket scheme socket) :
    IsScheme socket ∧ socketScheme (socket.map Char.toLower) = socket := by
  cases known with
  | plain => exact ⟨isScheme_of_letters (by simp) (by decide), by decide⟩
  | secure => exact ⟨isScheme_of_letters (by simp) (by decide), by decide⟩

/-- An address with a scheme and a host is put together from all that it has. -/
theorem text_of_host (named : url.scheme ≠ []) (hosted : url.host ≠ []) (apart : url.AreApart) :
    url.text = url.scheme ++ url.behindScheme := by
  have rooted : ¬ (url.path ≠ [] ∧ url.path.head? ≠ some '/') := by
    rintro ⟨some_, other⟩
    obtain ⟨c, more, path⟩ := List.exists_cons_of_ne_nil some_
    have first := apart.rooted c (by rw [path]; rfl)
    rw [path, first] at other
    exact other rfl
  simp [text, hosted, named, rooted, behindScheme, marked]

theorem socketScheme_ne_nil {scheme : List Char} (named : scheme ≠ []) : socketScheme scheme ≠ [] := by
  unfold socketScheme
  split
  · decide
  · split
    · decide
    · exact named

theorem not_deceptive_of_isVisible {c : Char} (visible : isVisible c = true) :
    deceptive.contains c.toNat = false := by
  simp only [isVisible, Bool.and_eq_true, decide_eq_true_eq] at visible
  rw [List.contains_eq_mem, decide_eq_false_iff_not]
  intro member
  have beyond : ∀ n ∈ deceptive, 0x7E < n := by decide
  have := beyond _ member
  omega

theorem socketUrl_of_parts (isScheme : IsScheme url.scheme) (hosted : url.host ≠ [])
    (isHost : IsHostPart url.host) (apart : url.AreApart)
    (visible : ∀ c ∈ url.behindScheme, isVisible c = true) :
    socketUrl (String.ofList (url.scheme ++ url.behindScheme)) =
      .ok (String.ofList (socketScheme (url.scheme.map Char.toLower) ++ url.behindScheme)) := by
  have solid : ∀ c ∈ url.behindScheme, c ≠ '\t' ∧ c ≠ '\r' ∧ c ≠ '\n' := by
    intro c inside
    refine ⟨?_, ?_, ?_⟩
    all_goals
      rintro rfl
      exact absurd (visible _ inside) (by decide)
  have honest : ∀ c ∈ url.host, deceptive.contains c.toNat = false := fun c inside =>
    not_deceptive_of_isVisible (visible c (by simp [behindScheme, inside]))
  have named : url.scheme ≠ [] := by
    obtain ⟨c, more, scheme, -⟩ := isScheme
    simp [scheme]
  have lowered : url.scheme.map Char.toLower ≠ [] := by simpa using named
  have derived : text { url with scheme := socketScheme (url.scheme.map Char.toLower) } =
      socketScheme (url.scheme.map Char.toLower) ++ url.behindScheme :=
    text_of_host (socketScheme_ne_nil lowered) hosted
      ⟨apart.host, apart.rooted, apart.path, apart.query⟩
  rw [socketUrl, String.toList_ofList,
    parse_behindScheme isScheme apart solid isHost.checkBrackets honest]
  exact congrArg (fun cs => Except.ok (String.ofList cs)) derived

/-- With the scheme of websockets in place of that of requests, everything behind the scheme is as it
was; and the address of websockets is its own. -/
theorem socketUrl_behindScheme {socket : List Char} (known : HasSocket url.scheme socket)
    (hosted : url.host ≠ []) (isHost : IsHostPart url.host) (apart : url.AreApart)
    (visible : ∀ c ∈ url.behindScheme, isVisible c = true) :
    socketUrl (String.ofList (url.scheme ++ url.behindScheme)) =
        .ok (String.ofList (socket ++ url.behindScheme)) ∧
      socketUrl (String.ofList (socket ++ url.behindScheme)) =
        .ok (String.ofList (socket ++ url.behindScheme)) := by
  have first := socketUrl_of_parts known.isScheme hosted isHost apart visible
  rw [known.socketScheme_eq] at first
  obtain ⟨isScheme, same⟩ := known.isSettled
  have settled : AreApart { url with scheme := socket } :=
    ⟨apart.host, apart.rooted, apart.path, apart.query⟩
  have second := @socketUrl_of_parts { url with scheme := socket } isScheme hosted isHost settled
    visible
  rw [same] at second
  exact ⟨first, second⟩

/-- An address with a user, brackets and a port, whose parts hold the marks that they may hold. -/
theorem socketUrl_behindScheme_everyPart :
    let url : Url := ⟨"hTTps".toList, "u:p@[::1]:80".toList, "/a//b;c/[d]".toList,
      "x=/?y[]=%20".toList, "f?/#g".toList⟩
    HasSocket url.scheme "wss".toList ∧ url.host ≠ [] ∧ IsHostPart url.host ∧ url.AreApart ∧
      (∀ c ∈ url.behindScheme, isVisible c = true) ∧
      socketUrl "hTTps://u:p@[::1]:80/a//b;c/[d]?x=/?y[]=%20#f?/#g" =
        .ok "wss://u:p@[::1]:80/a//b;c/[d]?x=/?y[]=%20#f?/#g" ∧
      socketUrl "wss://u:p@[::1]:80/a//b;c/[d]?x=/?y[]=%20#f?/#g" =
        .ok "wss://u:p@[::1]:80/a//b;c/[d]?x=/?y[]=%20#f?/#g" := by
  intro url
  have known : HasSocket url.scheme "wss".toList := .secure (by decide)
  have hosted : url.host ≠ [] := by decide
  have isHost : IsHostPart url.host :=
    .inr ⟨"u:p@".toList, "::1".toList, ":80".toList, by decide, by decide, rfl, by decide,
      by decide, by simp, by decide⟩
  have apart : url.AreApart := ⟨by simp [url], by simp [url], by simp [url], by decide⟩
  have visible : ∀ c ∈ url.behindScheme, isVisible c = true := List.all_eq_true.mp (by decide)
  have given : "hTTps://u:p@[::1]:80/a//b;c/[d]?x=/?y[]=%20#f?/#g".toList =
      url.scheme ++ url.behindScheme := by decide
  have derived : "wss://u:p@[::1]:80/a//b;c/[d]?x=/?y[]=%20#f?/#g".toList =
      "wss".toList ++ url.behindScheme := by decide
  have replaced := socketUrl_behindScheme known hosted isHost apart visible
  rw [← given, ← derived, String.ofList_toList, String.ofList_toList] at replaced
  exact ⟨known, hosted, isHost, apart, visible, replaced⟩

end Url
end InlineQuery
