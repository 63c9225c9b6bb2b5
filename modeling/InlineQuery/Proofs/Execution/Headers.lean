import InlineQuery.Config.Resolver
import InlineQuery.Execution.Network
import InlineQuery.Proofs.Data.Assoc
import InlineQuery.Proofs.Session.Freshness
import Mathlib.Data.List.Nodup
import Mathlib.Data.List.Pairwise

/-!
The headers of a request: those that are configured, and defaults where they are silent. Servers do
not tell names apart by the case of letters, and writing headers over defaults does.
-/

namespace InlineQuery

namespace Header

/-- Two names are the same for a server: they differ in the case of ASCII letters at most, and the names
of headers have no others. -/
def SameName (a b : String) : Prop := a.toList.map Char.toLower = b.toList.map Char.toLower

instance (a b : String) : Decidable (SameName a b) := inferInstanceAs (Decidable (_ = _))

theorem SameName.of_eq {a b : String} (same : a = b) : SameName a b := same ▸ rfl

theorem SameName.symm {a b : String} (same : SameName a b) : SameName b a := Eq.symm same

/-- No name is there twice for a server. -/
def AreApart (headers : List (String × String)) : Prop :=
  headers.Pairwise fun a b => ¬ SameName a.1 b.1

instance (headers : List (String × String)) : Decidable (AreApart headers) :=
  inferInstanceAs (Decidable (headers.Pairwise _))

/-- What is sent consists of all configured headers and of the defaults whose names are not
configured, and has no name twice. -/
structure AreOverridden (defaults configured sent : List (String × String)) : Prop where
  apart : AreApart sent
  kept : ∀ header ∈ configured, header ∈ sent
  yielding : ∀ header ∈ defaults, header ∈ sent → header ∉ configured →
    ∀ other ∈ configured, ¬ SameName other.1 header.1
  known : ∀ header ∈ sent, header ∈ configured ∨ header ∈ defaults

/-- Every configured name that is a default one for a server is spelled like it. -/
def AreSpelled (defaults configured : List (String × String)) : Prop :=
  ∀ header ∈ configured, ∀ default ∈ defaults, SameName header.1 default.1 → header.1 = default.1

instance (defaults configured : List (String × String)) :
    Decidable (AreSpelled defaults configured) :=
  inferInstanceAs (Decidable (∀ header ∈ configured, _))

variable {defaults configured headers : List (String × String)} {a b : String × String}

namespace AreApart

theorem not_sameName (apart : AreApart headers) (first : a ∈ headers) (second : b ∈ headers)
    (differ : a ≠ b) : ¬ SameName a.1 b.1 :=
  have : Std.Symm fun a b : String × String => ¬ SameName a.1 b.1 :=
    ⟨fun _ _ separate same => separate same.symm⟩
  List.Pairwise.forall apart first second differ

theorem nodup_names (apart : AreApart headers) : (headers.map (·.1)).Nodup :=
  List.pairwise_map.mpr <| List.Pairwise.imp (fun separate same => separate (.of_eq same)) apart

end AreApart

/-- Headers that are written over defaults are what a server should get if and only if they spell the
default names alike. -/
theorem areOverridden_merge_iff (defaultsApart : AreApart defaults) (apart : AreApart configured) :
    AreOverridden defaults configured (Assoc.merge defaults configured) ↔
      AreSpelled defaults configured := by
  have isSent (header : String × String) : header ∈ Assoc.merge defaults configured ↔
      header ∈ configured ∨ header ∈ defaults ∧ header.1 ∉ configured.map (·.1) :=
    Assoc.mem_merge_iff defaultsApart.nodup_names apart.nodup_names
  constructor
  · intro overridden header isConfigured default isDefault same
    by_contra differ
    by_cases given : default.1 ∈ configured.map (·.1)
    · obtain ⟨other, isOther, name⟩ := List.mem_map.mp given
      refine apart.not_sameName isConfigured isOther ?_ (name ▸ same)
      rintro rfl
      exact differ name
    · refine overridden.apart.not_sameName ((isSent header).mpr (.inl isConfigured))
        ((isSent default).mpr (.inr ⟨isDefault, given⟩)) ?_ same
      rintro rfl
      exact differ rfl
  · intro spelled
    have silent {header other : String × String} (isDefault : header ∈ defaults)
        (absent : header.1 ∉ configured.map (·.1)) (isConfigured : other ∈ configured) :
        ¬ SameName other.1 header.1 := fun same =>
      absent (List.mem_map.mpr ⟨other, isConfigured, spelled other isConfigured header isDefault same⟩)
    refine ⟨?_, fun header member => (isSent header).mpr (.inl member), ?_, ?_⟩
    · refine List.Nodup.pairwise_of_forall_ne
        ((Assoc.nodup_keys_merge defaultsApart.nodup_names configured).of_map _) ?_
      intro a first b second differ
      rcases (isSent a).mp first with isFirst | ⟨isFirst, noFirst⟩ <;>
        rcases (isSent b).mp second with isSecond | ⟨isSecond, noSecond⟩
      · exact apart.not_sameName isFirst isSecond differ
      · exact silent isSecond noSecond isFirst
      · exact fun same => silent isFirst noFirst isSecond same.symm
      · exact defaultsApart.not_sameName isFirst isSecond differ
    · intro header isDefault sent notConfigured other isConfigured
      rcases (isSent header).mp sent with given | ⟨-, absent⟩
      · exact absurd given notConfigured
      · exact silent isDefault absent isConfigured
    · intro header sent
      exact ((isSent header).mp sent).imp_right And.left

end Header

/-- A header of a configuration with its value in an environment. -/
def Environment.header (env : Environment) (written : Datum × Datum) : String × String :=
  (written.1.display,
    EnvTemplate.expand env (if written.2.isNull then "" else written.2.display))

open Header

variable {written : List (Datum × Datum)} {env : Environment} {entry : EndpointEntry}
  {endpoint : Endpoint} {path : Path} {key : Option String × String} {r : Request}

/-- An endpoint has the headers of its entry with their values. -/
theorem Resolver.headers_build (read : Validation.headers (.map written) = .ok entry.headers)
    (apart : AreApart (written.map env.header))
    (built : build env path key entry = .ok endpoint) : endpoint.headers = written.map env.header := by
  have names : ((written.map fun header =>
      (header.1.display, if header.2.isNull then "" else header.2.display)).map (·.1)).Nodup := by
    have nodup := apart.nodup_names
    rw [List.map_map] at nodup ⊢
    exact nodup
  have isEntry : entry.headers = written.map fun header =>
      (header.1.display, if header.2.isNull then "" else header.2.display) := by
    rw [Validation.headers] at read
    split at read
    · cases read
    · exact (Except.ok.inj read).symm.trans (Assoc.ofList_of_nodup names)
  unfold build at built
  simp only [bind, Except.bind, pure, Except.pure, throw, throwThe, MonadExceptOf.throw] at built
  split at built
  · cases built
  · split at built
    · cases built
    · rw [← Except.ok.inj built, isEntry, List.map_map]
      rfl

/-- What a request posts has its headers. -/
theorem Request.headers_post {net : Network} {post : Post}
    (posted : (r.post net).2.posts = net.posts ++ [post]) : post.headers = r.headers := by
  have none_ (same : net.posts = net.posts ++ [post]) : False := by
    have length := congrArg List.length same
    simp at length
  unfold Request.post at posted
  split at posted
  · exact (none_ posted).elim
  · split at posted
    · exact (none_ posted).elim
    · have last := List.append_cancel_left posted
      cases last
      rfl

/-- All headers that are configured are sent with a query or mutation, with their values. Besides them
the defaults are sent whose names are not configured, and no name twice, if and only if every
configured name that differs from a default one differs in more than the case of letters. -/
theorem Request.post_areOverridden_iff
    (read : Validation.headers (.map written) = .ok entry.headers)
    (apart : AreApart (written.map env.header))
    (built : Resolver.build env path key entry = .ok endpoint) (asked : r.endpoint = some endpoint)
    {net : Network} {post : Post} (posted : (r.post net).2.posts = net.posts ++ [post]) :
    (∀ header ∈ written.map env.header, header ∈ post.headers) ∧
      (AreOverridden defaultHeaders (written.map env.header) post.headers ↔
        AreSpelled defaultHeaders (written.map env.header)) := by
  have headers : post.headers = Assoc.merge defaultHeaders (written.map env.header) := by
    rw [headers_post posted, Request.headers, asked, Option.map_some, Option.getD_some,
      Resolver.headers_build read apart built]
  have defaultsApart : AreApart defaultHeaders := by decide
  rw [headers]
  refine ⟨fun header member => ?_, areOverridden_merge_iff defaultsApart apart⟩
  exact (Assoc.mem_merge_iff defaultsApart.nodup_names apart.nodup_names).mpr (.inl member)

/-- A default header and one of its own, which are configured with and without a value. -/
theorem Request.post_areOverridden_iff_accept :
    let env : Environment := [("A", "a/b")]
    let written := [(.text "Accept", .text "$\x7benv:A\x7d"), (.text "X", .null)]
    ∃ endpoint post,
      Resolver.build env ⟨"", []⟩ (none, "e") ⟨"u", [("Accept", "$\x7benv:A\x7d"), ("X", "")], none⟩ =
        .ok endpoint ∧
      ((⟨default, [], some endpoint⟩ : Request).post default).2.posts = [post] ∧
      AreOverridden defaultHeaders (written.map env.header) post.headers := by
  intro env written
  obtain ⟨endpoint, built, post, -, posted⟩ :
      ∃ endpoint ∈ (Resolver.build env ⟨"", []⟩ (none, "e")
        ⟨"u", [("Accept", "$\x7benv:A\x7d"), ("X", "")], none⟩).toOption,
      ∃ post ∈ ((⟨default, [], some endpoint⟩ : Request).post default).2.posts.head?,
        ((⟨default, [], some endpoint⟩ : Request).post default).2.posts = [post] := by
    decide
  have built := eq_ok_of_mem_toOption built
  have read : Validation.headers (.map written) = .ok [("Accept", "$\x7benv:A\x7d"), ("X", "")] := rfl
  exact ⟨endpoint, post, built, posted,
    (post_areOverridden_iff read (by decide) built rfl posted).2.mpr (by decide)⟩

/-- A default header is configured in small letters: it is sent under both names. -/
theorem Request.not_post_areOverridden :
    let env : Environment := []
    let written := [(.text "content-type", .text "a/b")]
    AreApart (written.map env.header) ∧ ∃ endpoint post,
      Validation.headers (.map written) = .ok [("content-type", "a/b")] ∧
      Resolver.build env ⟨"", []⟩ (none, "e") ⟨"u", [("content-type", "a/b")], none⟩ = .ok endpoint ∧
      ((⟨default, [], some endpoint⟩ : Request).post default).2.posts = [post] ∧
      ¬ AreOverridden defaultHeaders (written.map env.header) post.headers := by
  intro env written
  obtain ⟨endpoint, built, post, -, posted, twice⟩ :
      ∃ endpoint ∈ (Resolver.build env ⟨"", []⟩ (none, "e")
        ⟨"u", [("content-type", "a/b")], none⟩).toOption,
      ∃ post ∈ ((⟨default, [], some endpoint⟩ : Request).post default).2.posts.head?,
        ((⟨default, [], some endpoint⟩ : Request).post default).2.posts = [post] ∧
          ¬ AreApart post.headers := by
    decide
  exact ⟨by decide, endpoint, post, rfl, eq_ok_of_mem_toOption built, posted,
    fun overridden => twice overridden.apart⟩

end InlineQuery
