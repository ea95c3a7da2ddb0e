/-
# What one event does

The dispatch of an event is an act of the innermost receiver between two changes of the lists of
open elements.  This file says once what each event can do, in terms of the act that reaches the
innermost receiver (`reaching`), and how a failure of a list of events comes from one of them.
Nothing else unfolds `Dispatch.step`.
-/
import CloudCodec.Decode.Receiver
import Mathlib

namespace CloudCodec.Decode

open Xml

variable {σ τ α : Type}

/-! ### Acts of a child -/

/-- An outcome whose state is put into a larger one. -/
def putInto (put : σ → τ) : EStateM.Result Error σ α → EStateM.Result Error τ α
  | .ok a s => .ok a (put s)
  | .error e s => .error e (put s)

@[simp] lemma putInto_ok (put : σ → τ) (a : α) (s : σ) :
    putInto put (.ok a s) = .ok a (put s) := rfl

@[simp] lemma putInto_error (put : σ → τ) (e : Error) (s : σ) :
    putInto put (.error e s : EStateM.Result Error σ α) = .error e (put s) := rfl

@[simp] lemma putInto_id (r : EStateM.Result Error σ α) : putInto id r = r := by
  cases r <;> rfl

lemma putInto_putInto {ρ : Type} (f : σ → τ) (g : τ → ρ) (r : EStateM.Result Error σ α) :
    putInto g (putInto f r) = putInto (fun s => g (f s)) r := by
  cases r <;> rfl

variable [Receiver σ]

section Reaching

variable {receiver child : σ} {name : String} {names : List String} {act : EStateM Error σ α}

lemma reaching_nil : reaching [] act = act := rfl

lemma reaching_cons_of_none (h : Receiver.child? receiver name = none) :
    reaching (name :: names) act receiver = .error (.detachedChild name) receiver := by
  simp [reaching, h]

lemma reaching_cons_of_some (h : Receiver.child? receiver name = some child) :
    reaching (name :: names) act receiver
      = putInto (Receiver.withChild receiver name) (reaching names act child) := by
  simp only [reaching, h]
  cases reaching names act child <;> rfl

/-- The receiver behind one more name is the child of the receiver reached so far. -/
lemma reaching_append (names : List String) (name : String) (act : EStateM Error σ α) :
    reaching (names ++ [name]) act = reaching names (reaching [name] act) := by
  induction names with
  | nil => rfl
  | cons n names ih =>
    funext receiver
    simp only [List.cons_append]
    cases h : Receiver.child? receiver n with
    | none => rw [reaching_cons_of_none h, reaching_cons_of_none h]
    | some child => rw [reaching_cons_of_some h, reaching_cons_of_some h, ih]

end Reaching

/-- Offers the opening of an element to a receiver. -/
def offerOpening (name : String) (attributes : Attributes) : EStateM Error σ Bool := fun receiver =>
  let (isClaimed, receiver) := Receiver.claim receiver name attributes
  .ok isClaimed receiver

namespace Dispatch

variable {limit : Option Nat} {root : σ} {frames : List Frame} {claimed : List String}
  {name text : String} {attributes : Attributes}

/-! ### Openings -/

/-- A number of open elements reaches the limit, or stays below it. -/
lemma reaches_or_below (limit : Option Nat) (k : Nat) :
    (∃ n, limit = some n ∧ n ≤ k) ∨ ∀ n, limit = some n → k < n := by
  cases limit with
  | none =>
    right
    intro n hn
    cases hn
  | some n =>
    rcases Nat.lt_or_ge k n with hlt | hle
    · right
      intro m hm
      cases hm
      exact hlt
    · exact Or.inl ⟨n, rfl, hle⟩

/-- Behind the limit an opening fails before anything is offered. -/
lemma step_opening_of_le {n : Nat} (h : n ≤ frames.length) :
    step (some n) (.opening name attributes) ⟨root, frames, claimed⟩
      = .error (.depthExceeded n) ⟨root, frames, claimed⟩ := by
  simp [step, onOpening, bind, EStateM.bind, get, getThe, MonadStateOf.get, EStateM.get, h,
    throw, throwThe, MonadExceptOf.throw, EStateM.throw]

/-- Within the limit an opening is offered to the innermost receiver and opens a frame. -/
lemma step_opening (h : ∀ n, limit = some n → frames.length < n) :
    step limit (.opening name attributes) ⟨root, frames, claimed⟩
      = match reaching claimed.reverse (offerOpening name attributes) root with
        | .ok isClaimed root =>
          .ok () ⟨root, ⟨isClaimed, false⟩ :: markParent frames,
            if isClaimed then name :: claimed else claimed⟩
        | .error e root => .error e ⟨root, markParent frames, claimed⟩ := by
  have hstep : step limit (.opening name attributes) ⟨root, frames, claimed⟩
      = (onInnermost (offerOpening name attributes) >>= fun isClaimed =>
          modify fun d : Dispatch σ =>
            { d with
              frames := ⟨isClaimed, false⟩ :: d.frames
              claimed := if isClaimed then name :: d.claimed else d.claimed })
          ⟨root, markParent frames, claimed⟩ := by
    cases limit with
    | none => rfl
    | some n =>
      have hn : ¬ n ≤ frames.length := Nat.not_le.2 (h n rfl)
      simp only [step, onOpening, bind, EStateM.bind, get, getThe, MonadStateOf.get, EStateM.get,
        hn, if_false]
      rfl
  rw [hstep]
  simp only [bind, EStateM.bind, onInnermost, onRoot]
  cases reaching claimed.reverse (offerOpening name attributes) root <;> rfl

/-! ### Closings -/

lemma step_closing_of_nil :
    step limit (.closing name text) ⟨root, [], claimed⟩
      = .error (.malformed (.unbalancedClose name)) ⟨root, [], claimed⟩ := rfl

/-- The closing of a claimed element is offered to nobody. -/
lemma step_closing_of_claimed {hasChildren : Bool} :
    step limit (.closing name text) ⟨root, ⟨true, hasChildren⟩ :: frames, claimed⟩
      = .ok () ⟨root, frames, claimed.tail⟩ := rfl

/-- The closing of an element with child elements is offered to nobody. -/
lemma step_closing_of_hasChildren :
    step limit (.closing name text) ⟨root, ⟨false, true⟩ :: frames, claimed⟩
      = .ok () ⟨root, frames, claimed⟩ := rfl

/-- A leaf is offered to the innermost receiver. -/
lemma step_closing_leaf :
    step limit (.closing name text) ⟨root, ⟨false, false⟩ :: frames, claimed⟩
      = putInto (⟨·, frames, claimed⟩)
          (reaching claimed.reverse (Receiver.takeLeaf name text) root) := by
  have hstep : step limit (.closing name text) ⟨root, ⟨false, false⟩ :: frames, claimed⟩
      = onInnermost (Receiver.takeLeaf name text) ⟨root, frames, claimed⟩ := rfl
  rw [hstep]
  simp only [onInnermost, onRoot]
  cases reaching claimed.reverse (Receiver.takeLeaf name text) root <;> rfl

/-! ### Lists of events -/

/-- The dispatch of events one after the other. -/
def run (limit : Option Nat) (events : List Event) (d : Dispatch σ) :
    EStateM.Result Error (Dispatch σ) Unit :=
  events.forM (step limit) d

variable {events : List Event} {d d' : Dispatch σ}

lemma run_nil : run limit [] d = .ok () d := rfl

lemma run_cons (event : Event) (events : List Event) :
    run limit (event :: events) d
      = match step limit event d with
        | .ok _ d => run limit events d
        | .error e d => .error e d := by
  simp only [run, List.forM_eq_forM, List.forM_cons, bind, EStateM.bind]
  cases step limit event d <;> rfl

lemma run_append (events events' : List Event) :
    run limit (events ++ events') d
      = match run limit events d with
        | .ok _ d => run limit events' d
        | .error e d => .error e d := by
  induction events generalizing d with
  | nil => rfl
  | cons event events ih =>
    rw [List.cons_append, run_cons, run_cons]
    cases step limit event d with
    | ok _ d => exact ih
    | error e d => rfl

lemma run_singleton (event : Event) : run limit [event] d = step limit event d := by
  rw [run_cons]
  cases step limit event d <;> rfl

/-- Events that succeed together succeed one part after the other. -/
lemma exists_of_run_append {events events' : List Event}
    (h : run limit (events ++ events') d = .ok () d') :
    ∃ mid, run limit events d = .ok () mid ∧ run limit events' mid = .ok () d' := by
  rw [run_append] at h
  cases hrun : run limit events d with
  | ok _ mid =>
    rw [hrun] at h
    exact ⟨mid, rfl, h⟩
  | error e mid =>
    rw [hrun] at h
    cases h

/-- A failure comes from one event, behind others that succeed. -/
lemma exists_of_run_eq_error {e : Error} (h : run limit events d = .error e d') :
    ∃ before event after mid, events = before ++ event :: after ∧
      run limit before d = .ok () mid ∧ step limit event mid = .error e d' := by
  induction events generalizing d with
  | nil => simp [run_nil] at h
  | cons event events ih =>
    rw [run_cons] at h
    cases hstep : step limit event d with
    | ok _ mid =>
      rw [hstep] at h
      obtain ⟨before, event', after, mid', rfl, hbefore, hstep'⟩ := ih h
      refine ⟨event :: before, event', after, mid', rfl, ?_, hstep'⟩
      rw [run_cons, hstep]
      exact hbefore
    | error e' mid =>
      rw [hstep] at h
      cases h
      exact ⟨[], event, events, d, rfl, rfl, hstep⟩

end Dispatch

lemma dispatch_eq_run (limit : Option Nat) (events : List Event) (root : σ) :
    dispatch limit events root
      = match Dispatch.run limit events (Dispatch.start root) with
        | .ok _ d => .ok () d.root
        | .error e d => .error e d.root := rfl

/-- A dispatch that fails has taken in some of its events and refuses the next one. -/
lemma exists_of_dispatch_eq_error {limit : Option Nat} {events : List Event} {root root' : σ}
    {e : Error} (h : dispatch limit events root = .error e root') :
    ∃ before event after d d', events = before ++ event :: after ∧
      Dispatch.run limit before (Dispatch.start root) = .ok () d ∧
      Dispatch.step limit event d = .error e d' ∧ d'.root = root' := by
  rw [dispatch_eq_run] at h
  cases hrun : Dispatch.run limit events (Dispatch.start root) with
  | ok _ d =>
    rw [hrun] at h
    cases h
  | error e' d' =>
    rw [hrun] at h
    cases h
    obtain ⟨before, event, after, d, hevents, hbefore, hstep⟩ :=
      Dispatch.exists_of_run_eq_error hrun
    exact ⟨before, event, after, d, d', hevents, hbefore, hstep, rfl⟩

end CloudCodec.Decode
