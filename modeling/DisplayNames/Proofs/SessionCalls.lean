import DisplayNames.Proofs.DirectWriting
import Mathlib.Data.List.Basic

/-!
# Calls on a session

The session of a renderer can be held open between calls, and requests for display names use the
same session.  Calls on the session and requests may come in any order, and some of them fail.  The
calls made so far and their answers say what the session holds: the texts appended since it was
opened last, unless it was closed or given up since.  A request fails while the session is open, and
then it leaves alone what is in it; otherwise it leaves no trace in the session, even if it fails.

## Main definitions

* `DisplayNames.SessionCall` — a call on the session of a renderer, or a request.
* `DisplayNames.Renderer.perform`, `DisplayNames.Renderer.performAll` — one call, and several.
* `DisplayNames.SessionEvent.Pending` — what a session holds by the calls so far.

## Main results

* `DisplayNames.SessionEvent.pending_append` — how one more call changes what a session holds.
* `DisplayNames.Renderer.Recorded.performAll` — the session holds what the calls say.
* `DisplayNames.Renderer.session_calls` — what every call does after any calls.
-/

set_option relaxedAutoImplicit false
set_option autoImplicit false

namespace DisplayNames

/-- A call on the session of a renderer, or a request for a display name. -/
inductive SessionCall where
  | begin
  | append (text : String)
  | finish
  | discard
  | render (subject : Subject)

/-- A call and its answer: a text, nothing, or the reason why the call failed. -/
structure SessionEvent where
  call : SessionCall
  answer : Except Fault (Option String)

/-- A closed session holds nothing. -/
lemma Session.isOpen_eq_false_iff {s : Session} : s.isOpen = false ↔ s.texts = none := by
  rw [isOpen, Option.isSome_eq_false_iff, Option.isNone_iff_eq_none]

/-! ## Calls -/

namespace Renderer

/-- The renderer with another session. -/
def withSession (r : Renderer) (session : Session) : Renderer := { r with session }

@[simp] lemma withSession_session (r : Renderer) (session : Session) :
    (r.withSession session).session = session := rfl

section

variable (g : Graph) (display : Display)

/-- One call. -/
def perform (r : Renderer) : SessionCall → Except Fault (Option String) × Renderer
  | .begin =>
    match r.session.begin with
    | .ok session => (.ok none, r.withSession session)
    | .error error => (.error (.broken error), r)
  | .append text =>
    match r.session.append text with
    | .ok session => (.ok none, r.withSession session)
    | .error error => (.error (.broken error), r)
  | .finish =>
    match r.session.finish with
    | .ok (text, session) => (.ok (some text), r.withSession session)
    | .error error => (.error (.broken error), r)
  | .discard => (.ok none, r.withSession r.session.discard)
  | .render subject =>
    let (result, r) := r.render g display subject
    (result.map some, r)

/-- Several calls, one after the other, with their answers. -/
def performAll (r : Renderer) : List SessionCall → List SessionEvent × Renderer
  | [] => ([], r)
  | call :: rest =>
    let (answer, r) := r.perform g display call
    let (events, r) := performAll r rest
    (⟨call, answer⟩ :: events, r)

end

end Renderer

/-! ## What a session holds -/

namespace SessionEvent

/-- The session was opened, closed or given up. -/
def switches : SessionEvent → Bool
  | ⟨.begin, .ok _⟩ => true
  | ⟨.finish, .ok _⟩ => true
  | ⟨.discard, _⟩ => true
  | _ => false

/-- The text that was passed to be appended. -/
def appended? : SessionEvent → Option String
  | ⟨.append text, _⟩ => some text
  | _ => none

/-- By the calls so far the session is open and holds some texts: these were passed to be appended
since it was opened successfully for the last time, and since then it was neither closed
successfully nor given up. -/
def Pending (events : List SessionEvent) (texts : List String) : Prop :=
  ∃ before after, events = before ++ ⟨.begin, .ok none⟩ :: after ∧
    (∀ e ∈ after, e.switches = false) ∧ texts = after.filterMap appended?

/-- Before the first call there is nothing. -/
lemma not_pending_nil (texts : List String) : ¬ Pending [] texts := by
  rintro ⟨before, after, h, _⟩
  simp at h

/-- **How one more call changes what a session holds.**

**Proof sketch.** What is pending behind a last begin stays pending while nothing switches.  So the
last call is that begin, or it came behind it and may have added a text. -/
theorem pending_append (events : List SessionEvent) (e : SessionEvent) (texts : List String) :
    Pending (events ++ [e]) texts ↔
      (e = ⟨.begin, .ok none⟩ ∧ texts = []) ∨
      (e.switches = false ∧ ∃ earlier, Pending events earlier ∧
        texts = earlier ++ e.appended?.toList) := by
  constructor
  · rintro ⟨before, after, h, hafter, rfl⟩
    rcases List.eq_nil_or_concat after with rfl | ⟨front, last, rfl⟩
    · obtain ⟨_, hlast⟩ := List.append_inj' h rfl
      exact .inl ⟨(List.cons.inj hlast).1, rfl⟩
    · rw [List.concat_eq_append] at h hafter ⊢
      rw [← List.cons_append, ← List.append_assoc] at h
      obtain ⟨rfl, hlast⟩ := List.append_inj' h rfl
      obtain rfl := (List.cons.inj hlast).1
      refine .inr ⟨hafter e (by simp), front.filterMap appended?, ⟨before, front, rfl, ?_, rfl⟩, ?_⟩
      · exact fun e' he' => hafter e' (List.mem_append_left _ he')
      · rw [List.filterMap_append]
        cases hlast : e.appended? <;> simp [hlast]
  · rintro (⟨rfl, rfl⟩ | ⟨hswitch, _, ⟨before, after, rfl, hafter, rfl⟩, rfl⟩)
    · exact ⟨events, [], rfl, by simp, rfl⟩
    · refine ⟨before, after ++ [e], by simp, ?_, ?_⟩
      · intro e' he'
        rcases List.mem_append.1 he' with he' | he'
        · exact hafter e' he'
        · exact List.mem_singleton.1 he' ▸ hswitch
      · rw [List.filterMap_append]
        cases hlast : e.appended? <;> simp [hlast]

/-- Nothing is held behind a call by which the session was closed or given up. -/
lemma not_pending_append {events : List SessionEvent} {e : SessionEvent}
    (hswitch : e.switches = true) (hbegin : e.call ≠ .begin) (texts : List String) :
    ¬ Pending (events ++ [e]) texts := by
  rw [pending_append]
  rintro (⟨rfl, _⟩ | ⟨hnot, _⟩)
  · exact hbegin rfl
  · rw [hswitch] at hnot
    cases hnot

/-- A call that neither switches nor appends changes nothing. -/
lemma pending_append_of_neutral {events : List SessionEvent} {e : SessionEvent}
    (hswitch : e.switches = false) (happend : e.appended? = none) (texts : List String) :
    Pending (events ++ [e]) texts ↔ Pending events texts := by
  rw [pending_append]
  constructor
  · rintro (⟨rfl, _⟩ | ⟨_, earlier, hpending, rfl⟩)
    · cases hswitch
    · rwa [happend, Option.toList_none, List.append_nil]
  · exact fun hpending => .inr ⟨hswitch, texts, hpending, by simp [happend]⟩

end SessionEvent

namespace Renderer

/-- The session of a renderer holds what the calls so far say. -/
def Recorded (events : List SessionEvent) (r : Renderer) : Prop :=
  ∀ texts, r.session.texts = some texts ↔ SessionEvent.Pending events texts

section

variable (g : Graph) (display : Display)

/-- A request leaves the session as it was, whether it fails or not. -/
lemma render_session (r : Renderer) (subject : Subject) :
    (r.render g display subject).2.session = r.session := by
  obtain ⟨⟨texts⟩, memo⟩ := r
  cases texts <;> rfl

/-- **One call keeps the record.**

**Proof sketch.** A call that fails leaves the session as it was, and so does a request; it neither
switches the session, nor is it behind an opening if it tried to append.  Of the other calls one
opens the session with nothing in it, one puts a text behind those that are in it, and two close
it. -/
lemma Recorded.perform {events : List SessionEvent} {r : Renderer} (h : Recorded events r)
    (call : SessionCall) :
    Recorded (events ++ [⟨call, (r.perform g display call).1⟩]) (r.perform g display call).2 := by
  obtain ⟨⟨held⟩, memo⟩ := r
  intro texts
  cases call with
  | begin =>
    cases held with
    | none =>
      rw [SessionEvent.pending_append]
      simp [Renderer.perform, Session.begin, SessionEvent.switches, eq_comm]
    | some held => exact (h texts).trans (SessionEvent.pending_append_of_neutral rfl rfl texts).symm
  | append text =>
    rw [SessionEvent.pending_append]
    cases held with
    | none =>
      have hnone (earlier : List String) : ¬ SessionEvent.Pending events earlier := fun hpending =>
        nomatch (h earlier).2 hpending
      simp [Renderer.perform, Session.append, hnone]
    | some held =>
      simp [Renderer.perform, Session.append, SessionEvent.switches, SessionEvent.appended?,
        ← h _, eq_comm]
  | finish =>
    cases held with
    | none => exact (h texts).trans (SessionEvent.pending_append_of_neutral rfl rfl texts).symm
    | some held =>
      have hnot : ¬ SessionEvent.Pending (events ++ [⟨.finish, .ok (some (String.join held))⟩])
          texts := SessionEvent.not_pending_append rfl (by simp) texts
      exact ⟨(nomatch ·), (absurd · hnot)⟩
  | discard =>
    have hnot : ¬ SessionEvent.Pending (events ++ [⟨.discard, .ok none⟩]) texts :=
      SessionEvent.not_pending_append rfl (by simp) texts
    exact ⟨(nomatch ·), (absurd · hnot)⟩
  | render subject =>
    have hsession := render_session g display ⟨⟨held⟩, memo⟩ subject
    rw [SessionEvent.pending_append_of_neutral rfl rfl, ← h texts, ← hsession]
    rfl

/-- **The session holds what the calls say**, after any calls. -/
theorem Recorded.performAll {events : List SessionEvent} {r : Renderer} (h : Recorded events r)
    (calls : List SessionCall) :
    Recorded (events ++ (r.performAll g display calls).1) (r.performAll g display calls).2 := by
  induction calls generalizing events r with
  | nil =>
    rw [Renderer.performAll, List.append_nil]
    exact h
  | cons call rest ih =>
    have hrest := ih (h.perform g display call)
    rw [List.append_assoc] at hrest
    exact hrest

/-- A call changes no answer about the signatures of the graph. -/
lemma perform_isBogus (r : Renderer) (call : SessionCall) :
    (r.perform g display call).2.memo.isBogus g = r.memo.isBogus g := by
  obtain ⟨⟨held⟩, memo⟩ := r
  cases call with
  | render subject =>
    obtain ⟨ids, hids⟩ := render_memo ⟨⟨held⟩, memo⟩ g display subject
    exact (congrArg (Memo.isBogus · g) hids).trans (memo.isBogus_examineAll g ids)
  | begin | append text | finish | discard => cases held <;> rfl

/-- Nor do several calls. -/
lemma performAll_isBogus (r : Renderer) (calls : List SessionCall) :
    (r.performAll g display calls).2.memo.isBogus g = r.memo.isBogus g := by
  induction calls generalizing r with
  | nil => rfl
  | cons call rest ih => exact (ih _).trans (r.perform_isBogus g display call)

/-! ## What a call does -/

/-- What calls do on a renderer whose session is open and holds some texts. -/
structure Holds (r : Renderer) (texts : List String) : Prop where
  finish : r.perform g display .finish = (.ok (some (String.join texts)), r.withSession .closed)
  append (text : String) :
    r.perform g display (.append text) = (.ok none, r.withSession ⟨some (texts ++ [text])⟩)
  begin : r.perform g display .begin = (.error (.broken .sessionInProgress), r)
  render (subject : Subject) :
    r.perform g display (.render subject) = (.error (.broken .sessionInProgress), r)

/-- What calls do on a renderer whose session is closed.  A request is answered as another renderer
would answer it. -/
structure Idles (first r : Renderer) : Prop where
  begin : r.perform g display .begin = (.ok none, r.withSession ⟨some []⟩)
  append (text : String) :
    r.perform g display (.append text) = (.error (.broken .appendOutsideSession), r)
  finish : r.perform g display .finish = (.error (.broken .sessionNotStarted), r)
  closed (subject : Subject) :
    (r.perform g display (.render subject)).2.session.isOpen = false
  answer (subject : Subject) : (r.perform g display (.render subject)).1 =
    (first.render g display subject).1.map some

/-- The calls on an open session. -/
lemma holds_of_texts {r : Renderer} {texts : List String} (h : r.session.texts = some texts) :
    r.Holds g display texts := by
  obtain ⟨⟨held⟩, memo⟩ := r
  obtain rfl : held = some texts := h
  exact ⟨rfl, fun _ => rfl, rfl, fun _ => rfl⟩

/-- The calls on a closed session, in comparison with another renderer that is closed and knows the
same of the signatures. -/
lemma idles_of_closed {first r : Renderer} (hr : r.session.isOpen = false)
    (hfirst : first.session.isOpen = false) (hmemo : r.memo.isBogus g = first.memo.isBogus g) :
    Idles g display first r := by
  have hclosed (subject : Subject) := render_closed hr g display subject
  have hanswer (subject : Subject) :
      (r.render g display subject).1 = (first.render g display subject).1 := by
    rw [render_fst hr, render_fst hfirst, hmemo]
  obtain ⟨⟨held⟩, memo⟩ := r
  obtain rfl : held = none := Session.isOpen_eq_false_iff.1 hr
  exact ⟨rfl, fun _ => rfl, rfl, hclosed,
    fun subject => congrArg (Except.map some) (hanswer subject)⟩

/-- **What every call does after any calls** on a renderer whose session was closed before the first
one.  The session is open exactly if it was opened successfully and neither closed successfully nor
given up since; while it is open, to close it gives what was passed to be appended since it was
opened, in order, and neither a second opening nor a request does anything but fail; while it is
closed, only an opening or a request succeeds, and a request is answered as if it were the first
call, and leaves it closed.  A request is carried out on this very session.

**Proof sketch.** The session holds what the calls say, because each call keeps that record. -/
theorem session_calls {first : Renderer} (hfirst : first.session.isOpen = false)
    (calls : List SessionCall) :
    let events := (first.performAll g display calls).1
    let now := (first.performAll g display calls).2
    (now.session.isOpen = true ↔ ∃ texts, SessionEvent.Pending events texts) ∧
    (∀ texts, SessionEvent.Pending events texts → now.Holds g display texts) ∧
    ((∀ texts, ¬ SessionEvent.Pending events texts) → Idles g display first now) ∧
    now.perform g display .discard = (.ok none, now.withSession .closed) ∧
    ∀ subject, now.perform g display (.render subject) =
      ((now.renderDirectly g display subject).1.map some,
        (now.renderDirectly g display subject).2) := by
  intro events now
  have hstart : Recorded [] first := by
    intro texts
    rw [Session.isOpen_eq_false_iff.1 hfirst]
    simp [SessionEvent.not_pending_nil]
  have hnow : Recorded events now := hstart.performAll g display calls
  refine ⟨?_, fun texts hpending => holds_of_texts g display ((hnow texts).2 hpending),
    fun hnone => ?_, rfl, fun subject => ?_⟩
  · rw [Session.isOpen, Option.isSome_iff_exists]
    exact exists_congr hnow
  · refine idles_of_closed g display ?_ hfirst (first.performAll_isBogus g display calls)
    rw [Session.isOpen_eq_false_iff, Option.eq_none_iff_forall_ne_some]
    exact fun texts htexts => hnone texts ((hnow texts).1 htexts)
  · rw [renderDirectly_eq]
    rfl

end

/-- A text that was given up, a request that fails behind it, and an open session in which a request
and a second opening are refused: it holds what was appended before and after them. -/
theorem session_calls_refused :
    ({} : Renderer).session.isOpen = false ∧
      (let calls : List SessionCall := [.begin, .append "x", .discard, .append "y",
          .render (.symbol none none true), .render (.type (.pointer .void) none), .begin,
          .append "a", .render (.type .void none), .begin, .append "b"]
        let events := (({} : Renderer).performAll .empty {} calls).1
        let now := (({} : Renderer).performAll .empty {} calls).2
        events.map SessionEvent.answer = [.ok none, .ok none, .ok none,
            .error (.broken .appendOutsideSession), .error (.broken (.badSymbolKind none)),
            .ok (some "void*"), .ok none, .ok none, .error (.broken .sessionInProgress),
            .error (.broken .sessionInProgress), .ok none] ∧
          now.Holds .empty {} ["a", "b"] ∧
          (now.perform .empty {} .finish).1 = .ok (some "ab")) := by
  have hclosed : ({} : Renderer).session.isOpen = false := rfl
  refine ⟨hclosed, ?_⟩
  intro calls events now
  have hpending : SessionEvent.Pending events ["a", "b"] :=
    ⟨events.take 6, events.drop 7, rfl, by decide, rfl⟩
  have hholds := (session_calls .empty {} hclosed calls).2.1 ["a", "b"] hpending
  exact ⟨rfl, hholds, by rw [hholds.finish]; rfl⟩

end Renderer

end DisplayNames
