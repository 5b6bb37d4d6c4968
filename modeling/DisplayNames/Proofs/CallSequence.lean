import DisplayNames.Argument
import DisplayNames.Proofs.RequestOutcome
import Mathlib.Data.List.Perm.Basic
import Mathlib.Logic.Function.Basic

/-!
# Sequences of calls

Display names are asked for one after the other, from one renderer or from several, directly or for
the arguments of a diagnostic.  Two things survive a call: the session of the renderer and what is
remembered about the signatures of methods, which all renderers share because it is kept with the
methods.  Neither influences a later call, so every call is answered as if it were the only one.

The invariant that one call preserves is that all sessions are closed and that what is remembered is
true of the graph.

## Main definitions

* `DisplayNames.Call`, `DisplayNames.Reply` — a call and its answer.
* `DisplayNames.CallState` — what survives a call.
* `DisplayNames.Call.step`, `DisplayNames.Call.run` — one call, and several.
* `DisplayNames.Call.Moment` — what is remembered at some moment of a run.

## Main results

* `DisplayNames.CallState.Sound.step` — the invariant is preserved by a call.
* `DisplayNames.CallState.Sound.run_replies` — the answers of a run.
* `DisplayNames.Document.calls_independent` — calls do not influence each other.
-/

set_option relaxedAutoImplicit false
set_option autoImplicit false

namespace DisplayNames

/-- A call for a display name. -/
inductive Call where
  /-- A subject is rendered by the renderer with a number. -/
  | render (renderer : Nat) (subject : Subject)
  /-- An argument of a diagnostic is formatted. -/
  | format (arg : Argument)

/-- The answer to a call: a text or the reason why there is none. -/
inductive Reply where
  | rendered (result : Except Fault String)
  | formatted (result : Except Fault (Option Formatted))

/-- What survives a call: the session of every renderer and the shared memo. -/
structure CallState where
  session : Nat → Session
  memo : Memo

/-- No call was made yet. -/
def CallState.fresh : CallState := ⟨fun _ => .closed, []⟩

namespace Call

variable (g : Graph) (display : Display)

/-- One call. -/
def step (state : CallState) : Call → Reply × CallState
  | .render i subject =>
    let (result, r) := Renderer.render ⟨state.session i, state.memo⟩ g display subject
    (.rendered result, ⟨Function.update state.session i r.session, r.memo⟩)
  | .format arg =>
    let (result, memo) := arg.format g display state.memo
    (.formatted result, { state with memo })

/-- Several calls, one after the other. -/
def run (state : CallState) : List Call → List Reply × CallState
  | [] => ([], state)
  | call :: rest =>
    let (reply, state) := call.step g display state
    let (replies, state) := run state rest
    (reply :: replies, state)

/-- The answer to a call that is the only one. -/
def alone (call : Call) : Reply := (call.step g display .fresh).1

/-- The signatures that a call examines, in order. -/
def examined (state : CallState) : Call → List SymId
  | .render i subject =>
    if (state.session i).isOpen then []
    else (Renderer.rendering ⟨state.session i, state.memo⟩ g display subject).examined
  | .format arg =>
    match arg.subject? with
    | none => []
    | some subject => (Renderer.rendering ⟨.closed, state.memo⟩ g display subject).examined

/-- What is remembered at some moment of a run: between two calls, or while a call has examined
some of its signatures. -/
inductive Moment : CallState → List Call → Memo → Prop
  | between {state : CallState} {calls : List Call} : Moment state calls state.memo
  | during {state : CallState} {call : Call} {rest : List Call} {ids : List SymId} :
    ids <+: call.examined g display state →
      Moment state (call :: rest) (state.memo.examineAll g ids)
  | later {state : CallState} {call : Call} {rest : List Call} {memo : Memo} :
    Moment (call.step g display state).2 rest memo → Moment state (call :: rest) memo

variable {g display}

/-- A call remembers the signatures that it examines. -/
lemma step_memo (state : CallState) (call : Call) :
    (call.step g display state).2.memo =
      state.memo.examineAll g (call.examined g display state) := by
  cases call with
  | render i subject =>
    unfold step examined Renderer.render
    dsimp only
    split <;> rfl
  | format arg =>
    unfold step examined Argument.format
    dsimp only
    cases arg.subject? with
    | none => rfl
    | some subject => rfl

end Call

/-! ## The invariant -/

/-- All sessions are closed, and what is remembered is true. -/
structure CallState.Sound (g : Graph) (state : CallState) : Prop where
  closed : ∀ i, (state.session i).isOpen = false
  memo : state.memo.Sound g

/-- Before the first call the invariant holds. -/
lemma CallState.Sound.fresh (g : Graph) : CallState.fresh.Sound g where
  closed _ := rfl
  memo := .empty g

/-- Closed renderers with sound memos give the same answer. -/
lemma Renderer.render_fst_eq {g : Graph} (r r' : Renderer) (hr : r.session.isOpen = false)
    (hr' : r'.session.isOpen = false) (hmemo : r.memo.Sound g) (hmemo' : r'.memo.Sound g)
    (display : Display) (subject : Subject) :
    (r.render g display subject).1 = (r'.render g display subject).1 := by
  rw [Renderer.render_fst hr, Renderer.render_fst hr', Memo.sound_iff.1 hmemo,
    Memo.sound_iff.1 hmemo']

namespace CallState.Sound

open Call

variable {g : Graph} {state : CallState} (h : state.Sound g) (display : Display)
include h

/-- **The invariant is preserved by a call.**

**Proof sketch.** A call only changes the session of its own renderer, which closes it again.  What
it adds to the memory are answers that were looked up in the graph. -/
theorem step (call : Call) : (call.step g display state).2.Sound g := by
  refine ⟨fun i => ?_, ?_⟩
  · cases call with
    | render j subject =>
      show (Function.update state.session j _ i).isOpen = false
      by_cases hij : i = j
      · rw [hij, Function.update_self]
        exact Renderer.render_closed (r := ⟨state.session j, state.memo⟩) (h.closed j) g display
          subject
      · rw [Function.update_of_ne hij]
        exact h.closed i
    | format arg => exact h.closed i
  · rw [step_memo]
    exact h.memo.examineAll _

/-- A call is answered as if it were the only one. -/
lemma step_reply (call : Call) : (call.step g display state).1 = call.alone g display := by
  have hfresh := CallState.Sound.fresh g
  cases call with
  | render i subject =>
    have hresult := Renderer.render_fst_eq ⟨state.session i, state.memo⟩ {} (h.closed i) rfl
      h.memo hfresh.memo display subject
    exact congrArg Reply.rendered hresult
  | format arg =>
    have hresult : (arg.format g display state.memo).1 = (arg.format g display []).1 := by
      unfold Argument.format
      cases arg.subject? with
      | none => rfl
      | some subject =>
        have hsubject := Renderer.render_fst_eq ⟨.closed, state.memo⟩ {} rfl rfl h.memo hfresh.memo
          display subject
        exact congrArg (Except.map fun text => some (Formatted.mk (some text) true)) hsubject
    exact congrArg Reply.formatted hresult

/-- **Every call of a run is answered as if it were the only one.** -/
theorem run_replies (calls : List Call) :
    (Call.run g display state calls).1 = calls.map (Call.alone g display) := by
  induction calls generalizing state with
  | nil => rfl
  | cons call rest ih =>
    rw [List.map_cons, ← h.step_reply display call, ← ih (h.step display call)]
    rfl

/-- At every moment of a run what is remembered is true. -/
lemma moment {calls : List Call} {memo : Memo}
    (hmoment : Moment g display state calls memo) : memo.Sound g := by
  induction hmoment with
  | between => exact h.memo
  | during => exact h.memo.examineAll _
  | later _ ih => exact ih (h.step display _)

end CallState.Sound

namespace Document

/-- **Calls do not influence each other.**  In every run of calls over the graph of an accepted
document, from any renderers and for any arguments, each call is answered as it is when it is made
alone over another copy of the document, whatever the order of the calls; and at every moment what
is remembered about the signature of a method is true of the method.

**Proof sketch.** By induction on the run, what is remembered stays true of the graph and all
sessions stay closed.  In such a state a call is answered as in the first one.  The other two parts
follow: replies are a function of their calls, and the invariant holds at every moment. -/
theorem calls_independent {json : Json} {doc copy : Document} (hdoc : ofJson json = .ok doc)
    (hcopy : ofJson json = .ok copy) (display : Display) (calls : List Call) :
    (Call.run doc.graph display .fresh calls).1 =
        calls.map (fun call => (call.step copy.graph display .fresh).1) ∧
      (∀ calls', calls.Perm calls' →
        (calls.zip (Call.run doc.graph display .fresh calls).1).Perm
          (calls'.zip (Call.run doc.graph display .fresh calls').1)) ∧
      ∀ memo, Call.Moment doc.graph display .fresh calls memo → ∀ id,
        memo.get? id = none ∨ memo.get? id = some (doc.graph.signatureBogus id) := by
  have hsound := CallState.Sound.fresh doc.graph
  obtain rfl : doc = copy := Except.ok.inj (hdoc.symm.trans hcopy)
  refine ⟨hsound.run_replies display calls, fun calls' hperm => ?_, fun memo hmoment id => ?_⟩
  · rw [hsound.run_replies, hsound.run_replies, List.zip_map_right, List.zip_map_right]
    have hzip (calls : List Call) : calls.zip calls = calls.map fun call => (call, call) := by
      rw [← List.zip_map', List.map_id']
    rw [hzip, hzip]
    exact (hperm.map _).map _
  · have hmemo := hsound.moment display hmoment
    cases hget : memo.get? id with
    | none => exact .inl rfl
    | some bogus => exact .inr (congrArg some (hmemo id bogus hget))

/-- A conversion without a result fails, and the method behind it is rendered as if nothing had
happened: first with its signature, which is bogus, and then as the argument of a diagnostic. -/
theorem calls_independent_failing :
    ∃ doc, ofJson (.obj
        [("declarations", .arr [.obj [("kind", .str "class"), ("name", .str "Box"),
          ("bogus", .bool true),
          ("members", .arr [.obj [("kind", .str "method"), ("conversion", .str "implicit")],
            .obj [("kind", .str "method"), ("name", .str "Put"),
              ("params", .arr [.str "Box"])]])]])]) = .ok doc ∧
      (let put := (SymId.root.child (.member "Box" 0)).child (.member "Put" 0)
        let convert := (SymId.root.child (.member "Box" 0)).child (.member "op_Implicit" 0)
        let calls : List Call := [.render 0 (.symbol (some convert) none true),
          .render 0 (.symbol (some put) none true), .format (.symbol (some put) none)]
        (Call.run doc.graph {} .fresh calls).1 =
            calls.map (fun call => (call.step doc.graph {} .fresh).1) ∧
          (Call.run doc.graph {} .fresh calls).1 =
            [.rendered (.error (.broken (.conversionWithoutResult (some "op_Implicit")))),
              .rendered (.ok "Box.Put()"), .formatted (.ok (some ⟨some "Box.Put()", true⟩))]) := by
  refine ⟨?doc, ?hdoc, (calls_independent ?hdoc ?hdoc {} _).1, ?hreplies⟩
  case hdoc => exact rfl
  case hreplies => rfl

end Document

end DisplayNames
