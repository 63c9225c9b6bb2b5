import InlineQuery.Proofs.Session.Views

/-!
What a session posts. Only the first step of an execution sends a request, and it sends the operation
and the values that the execution was started with; these never change.
-/

namespace InlineQuery

/-- Whether a network has gone on to another, having sent only requests with a property. -/
def Network.Sends (P : Post → Prop) (net next : Network) : Prop :=
  ∃ posts, next.posts = net.posts ++ posts ∧ ∀ post ∈ posts, P post

namespace Network.Sends

variable {P : Post → Prop} {net middle next : Network}

theorem of_eq (same : next.posts = net.posts) : Sends P net next :=
  ⟨[], by rw [same, List.append_nil], by simp⟩

theorem trans (first : Sends P net middle) (second : Sends P middle next) : Sends P net next := by
  obtain ⟨posts, before, each⟩ := first
  obtain ⟨more, after, rest⟩ := second
  refine ⟨posts ++ more, by rw [after, before, List.append_assoc], fun post member => ?_⟩
  exact (List.mem_append.mp member).elim (each post) (rest post)

theorem mono {Q : Post → Prop} (sends : Sends P net next) (implies : ∀ post, P post → Q post) :
    Sends Q net next := by
  obtain ⟨posts, after, each⟩ := sends
  exact ⟨posts, after, fun post member => implies post (each post member)⟩

end Network.Sends

/-- What an execution is started with. -/
structure Order where
  operation : Operation
  values : List (String × Datum)

/-- What is sent for an order. -/
def Order.body (o : Order) : Datum := Request.body ⟨o.operation, o.values, none⟩

/-- Whether a request was sent for an order. -/
def Order.Posts (o : Order) (post : Post) : Prop := Json.sent o.body = .ok post.data

theorem Request.sends_post (r : Request) (net : Network) :
    net.Sends (Order.Posts ⟨r.operation, r.values⟩) (r.post net).2 := by
  unfold Request.post
  split
  · exact .of_eq rfl
  · split
    · exact .of_eq rfl
    · rename_i data sent
      exact ⟨[_], rfl, fun post member => by rw [List.mem_singleton.mp member]; exact sent⟩

namespace Handle

variable {h : Handle} {net : Network}

def order (h : Handle) : Order := ⟨h.operation, h.values⟩

theorem order_start (id : String) (op : Operation) (values : List (String × Datum)) :
    (Handle.start id op values).order = ⟨op, values⟩ := by
  unfold start
  dsimp only
  split
  · rfl
  · rfl

theorem order_finish (h : Handle) (failure : Option Failure) : (h.finish failure).order = h.order := by
  unfold finish
  split
  · rfl
  · split
    · rfl
    · unfold fail
      split <;> rfl

theorem order_perform (h : Handle) (effect : Effect) : (h.perform effect).order = h.order := by
  obtain ⟨_, _, _, same⟩ := h.exists_perform_eq effect
  rw [same, order, order]

theorem order_take (h : Handle) (t : Turn) : (h.take t).order = h.order := by
  have performed (effects : List Effect) (h : Handle) : (effects.foldl perform h).order = h.order := by
    induction effects generalizing h with
    | nil => rfl
    | cons effect effects ih => rw [List.foldl_cons, ih, order_perform]
  unfold take conclude
  split
  · exact performed t.effects h
  · rw [order_finish, performed]

theorem order_dispose (h : Handle) (net : Network) : (h.dispose net).1.order = h.order := by
  unfold dispose
  split
  · rfl
  · split <;> rfl

theorem posts_dispose (h : Handle) (net : Network) : (h.dispose net).2.posts = net.posts := by
  unfold dispose
  split
  · rfl
  · split <;> rfl

theorem posts_progress (net : Network) (i : Nat) (p : Progress) :
    (progress net i p).2.posts = net.posts := by
  unfold progress
  split
  · rfl
  · rfl
  · split <;> rfl
  · rfl

theorem posts_dial (r : Request) (net : Network) : (r.dial net).2.posts = net.posts := by
  unfold Request.dial
  split
  · rfl
  · split
    · rfl
    · unfold Network.dial
      dsimp only
      split <;> rfl

/-- The first step sends the order of the execution, if it sends anything. -/
theorem sends_launch (h : Handle) (net : Network) (resolved : Except Failure (Option Endpoint)) :
    net.Sends h.order.Posts (h.launch net resolved).2 := by
  have first : net.Sends h.order.Posts (h.firstTurn net resolved).2 := by
    unfold firstTurn
    split
    · exact .of_eq rfl
    · rename_i endpoint
      dsimp only
      split
      · refine .of_eq ?_
        unfold subscribe
        have dialed := posts_dial { h with endpoint }.request net
        generalize { h with endpoint }.request.dial net = outcome at dialed ⊢
        obtain ⟨made, after⟩ := outcome
        cases made with
        | error e => exact dialed
        | ok i => exact (posts_progress after i _).trans dialed
      · exact Request.sends_post { h with endpoint }.request net
  exact first

theorem order_launch (h : Handle) (net : Network) (resolved : Except Failure (Option Endpoint)) :
    (h.launch net resolved).1.order = h.order := order_take h _

theorem posts_takeFrame {i : Nat} {frame : Frame} {next : Network}
    (taken : net.takeFrame i = some (frame, next)) : next.posts = net.posts := by
  unfold Network.takeFrame at taken
  split at taken
  · cases taken
  · cases taken
    rfl

theorem posts_nextTurn {next : Turn × Network} (taken : h.nextTurn? net = some next) :
    next.2.posts = net.posts := by
  unfold nextTurn? at taken
  split at taken
  · cases taken
    rfl
  · cases taken
    rfl
  · obtain ⟨⟨frame, after⟩, isFrame, same⟩ := Option.bind_eq_some_iff.mp taken
    cases same
    exact (posts_progress after _ _).trans (posts_takeFrame isFrame)
  · cases taken

/-- Whether an execution has gone on without sending anything, and stands for the same order. -/
structure Keeps (h : Handle) (net : Network) (h' : Handle) (net' : Network) : Prop where
  order : h'.order = h.order
  posts : net'.posts = net.posts

namespace Keeps

variable {h' h'' : Handle} {net' net'' : Network}

theorem refl (h : Handle) (net : Network) : Keeps h net h net := ⟨rfl, rfl⟩

theorem trans (first : Keeps h net h' net') (second : Keeps h' net' h'' net'') :
    Keeps h net h'' net'' :=
  ⟨second.order.trans first.order, second.posts.trans first.posts⟩

theorem dispose (h : Handle) (net : Network) : Keeps h net (h.dispose net).1 (h.dispose net).2 :=
  ⟨order_dispose h net, posts_dispose h net⟩

theorem step (h : Handle) (net : Network) : Keeps h net (h.step net).1 (h.step net).2 := by
  unfold Handle.step
  split
  · rename_i turn next taken
    exact ⟨order_take h turn, posts_nextTurn taken⟩
  · exact refl h net

theorem steps (h : Handle) (net : Network) (n : Nat) :
    Keeps h net (h.steps net n).1 (h.steps net n).2 := by
  induction n generalizing h net with
  | zero => exact refl h net
  | succ n ih => exact (step h net).trans (ih _ _)

theorem settle (h : Handle) (net : Network) : Keeps h net (h.settle net).1 (h.settle net).2 :=
  steps h net _

/-- Taking from the queue is no step of the execution. -/
theorem withQueue (h : Handle) (net : Network) (queue : List (Option ResultEvent)) :
    Keeps h net { h with queue } net := ⟨rfl, rfl⟩

theorem disposeView (v : ResultView) (h : Handle) (net : Network) :
    Keeps h net (v.dispose h net).2.1 (v.dispose h net).2.2 := by
  unfold ResultView.dispose
  split
  · exact refl h net
  · exact dispose h net

theorem showEvent (disposes : Nat → Bool) (v : ResultView) (h : Handle) (net : Network) (e : ResultEvent) :
    Keeps h net (v.show_ disposes h net e).2.1 (v.show_ disposes h net e).2.2 := by
  unfold ResultView.show_
  dsimp only
  split
  · exact disposeView _ h net
  · exact refl h net

theorem stepView (disposes : Nat → Bool) (v : ResultView) (h : Handle) (net : Network) :
    Keeps h net (v.step disposes h net).2.1 (v.step disposes h net).2.2 := by
  unfold ResultView.step
  split
  · exact withQueue h net _
  · dsimp only
    split
    · exact withQueue h net _
    · exact (withQueue h net _).trans (showEvent disposes v _ net _)
  · exact refl h net

theorem settleView (disposes : Nat → Bool) (v : ResultView) (h : Handle) (net : Network) :
    Keeps h net (v.settle disposes h net).2.1 (v.settle disposes h net).2.2 := by
  have steps (n : Nat) (v : ResultView) (h : Handle) (net : Network) :
      Keeps h net (v.steps disposes h net n).2.1 (v.steps disposes h net n).2.2 := by
    induction n generalizing v h net with
    | zero => exact refl h net
    | succ n ih => exact (stepView disposes v h net).trans (ih _ _ _)
  exact steps _ v h net

end Keeps
end Handle

namespace Session

variable {s t u : Session} {i : Nat} {x y : ShownExecution} {net middle next : Network}

/-- What the executions of a session were started with. -/
def orders (s : Session) : List Order := s.shown.map (·.handle.order)

theorem orders_put (found : s.shown[i]? = some x) (same : y.handle.order = x.handle.order) :
    (s.put i y).orders = s.orders := by
  obtain ⟨bound, isAt⟩ := List.getElem?_eq_some_iff.mp found
  rw [orders, put, List.map_set, same, ← isAt]
  refine List.ext_getElem? fun j => ?_
  rw [List.getElem?_set]
  split
  · rename_i same
    subst same
    simp [orders, bound]
  · rfl

theorem orders_forget (s : Session) (uri : String) (i : Nat) : (s.forget uri i).orders = s.orders := by
  unfold forget
  split <;> rfl

theorem orders_start {fs : Files} {process explicit : Environment} {folders : List Path}
    {isDebugging checks : Bool}
    (started : start fs process explicit folders isDebugging checks = .ok s) : s.orders = [] := by
  unfold start at started
  cases checks with
  | false =>
    cases started
    rfl
  | true =>
    cases required : Configuration.require fs folders with
    | error e =>
      simp only [required] at started
      cases started
    | ok path =>
      simp only [required] at started
      cases started
      rfl

theorem orders_openFile (s : Session) (fs : Files) (path : Path) :
    (s.openFile fs path).2.orders = s.orders :=
  congrArg (List.map _) (adopt_apart s _).1

/-- An execution is started with the values of its request. -/
theorem orders_execute {id : String} {isWatched : Bool} {r : ExecuteRequest}
    (executed : s.execute id isWatched r = (.ok i, t)) :
    ∃ op, t.orders = s.orders ++ [⟨op, r.values⟩] := by
  have kept := (lensesFor_apart s r.uri).1
  unfold execute at executed
  generalize s.lensesFor r.uri = looked at executed kept
  obtain ⟨found, u⟩ := looked
  dsimp only at executed kept
  split at executed
  · cases executed
  · rename_i op query prepared
    cases executed
    refine ⟨op, ?_⟩
    simp only [orders, List.map_append, List.map_cons, List.map_nil, Handle.order_start, kept]

/-- Whether a session has gone on with the same orders, and sent requests for these alone. -/
structure Sends (s : Session) (net : Network) (t : Session) (next : Network) : Prop where
  orders : t.orders = s.orders
  posts : net.Sends (fun post => ∃ o ∈ s.orders, o.Posts post) next

namespace Sends

theorem refl (s : Session) (net : Network) : Sends s net s net := ⟨rfl, .of_eq rfl⟩

theorem trans (first : Sends s net t middle) (second : Sends t middle u next) : Sends s net u next :=
  ⟨second.orders.trans first.orders, first.posts.trans (first.orders ▸ second.posts)⟩

/-- An execution of a session goes on. -/
theorem put (found : s.shown[i]? = some x) (kept : x.handle.Keeps net y.handle next) :
    Sends s net (s.put i y) next :=
  ⟨orders_put found kept.order, .of_eq kept.posts⟩

theorem forget (sends : Sends s net t next) (uri : String) (i : Nat) :
    Sends s net (t.forget uri i) next :=
  ⟨(orders_forget t uri i).trans sends.orders, sends.posts⟩

theorem run (s : Session) (net : Network) (i : Nat) : Sends s net (s.run i) net := by
  unfold Session.run
  split
  · rename_i x found
    exact put found ⟨rfl, rfl⟩
  · exact refl s net

theorem launch (s : Session) (fs : Files) (net : Network) (i : Nat) :
    Sends s net (s.launch fs net i).1 (s.launch fs net i).2 := by
  unfold Session.launch
  split
  · exact refl s net
  · rename_i x found
    split
    · refine ⟨orders_put (s := { s with resolver := _ }) found (x.handle.order_launch net _), ?_⟩
      refine (x.handle.sends_launch net _).mono fun post sent => ⟨x.handle.order, ?_, sent⟩
      exact List.mem_map_of_mem (List.mem_of_getElem? found)
    · exact refl s net

theorem settleOne (s : Session) (fs : Files) (net : Network) (disposes : Nat → Bool) (i : Nat) :
    Sends s net (s.settleOne fs net disposes i).1 (s.settleOne fs net disposes i).2 := by
  have launched := launch s fs net i
  unfold Session.settleOne
  generalize s.launch fs net i = after at launched ⊢
  obtain ⟨t, middle⟩ := after
  dsimp only at launched ⊢
  split
  · exact launched
  · rename_i x found
    have kept := (Handle.Keeps.settle x.handle middle).trans
      (Handle.Keeps.settleView disposes x.view _ _)
    have settled (view : ResultView) :=
      launched.trans (put (y := { x with handle := _, view }) found kept)
    dsimp only
    split
    · exact (settled _).forget _ _
    · exact settled _

theorem settle (s : Session) (fs : Files) (net : Network) :
    Sends s net (s.settle fs net).1 (s.settle fs net).2 := by
  have each (numbers : List Nat) (x : Session × Network) : Sends x.1 x.2
      (numbers.foldl (fun x i => x.1.settleOne fs x.2 (fun _ => false) i) x).1
      (numbers.foldl (fun x i => x.1.settleOne fs x.2 (fun _ => false) i) x).2 := by
    induction numbers generalizing x with
    | nil => exact refl x.1 x.2
    | cons i numbers ih => exact (settleOne x.1 fs x.2 _ i).trans (ih _)
  exact each _ (s, net)

theorem disposeView (s : Session) (net : Network) (i : Nat) :
    Sends s net (s.disposeView net i).1 (s.disposeView net i).2 := by
  unfold Session.disposeView
  split
  · exact refl s net
  · rename_i x found
    split
    · exact refl s net
    · exact (put found (Handle.Keeps.disposeView x.view x.handle net)).forget _ _

end Sends
end Session
end InlineQuery
