/-
# Decoding under a limit

A dispatch that may nest `n` deep compares the limit with its frames only, and these are as many as
the elements that are open.  So up to the first opening of an element at depth `n + 1` it does what
a dispatch without a limit does, at that opening it stops, and nothing else stops it before
(`dispatch_eq_of_cut`).  Whoever succeeds under a limit does so under every larger one
(`dispatch_eq_of_le`).
-/
import CloudCodec.Proofs.Decode.Failure

namespace CloudCodec.Xml

/-! ### The elements that are too deep -/

/-- Among the events no element opens inside exactly `n` others. -/
def Shallow (n : Nat) (events : List Event) : Prop :=
  ∀ (outer inner : List Event) (name : String) (attributes : Attributes) (path : List String),
    events = outer ++ .opening name attributes :: inner →
    outer.foldlM pathBehind [] = some path → path.length ≠ n

/-- The events `before` are those before the first opening of an element inside exactly `n` others,
or all of them if there is none, and the events `after` are the others. -/
structure Cut (n : Nat) (events before after : List Event) : Prop where
  eq_append : events = before ++ after
  shallow : Shallow n before
  deep : after = [] ∨ ∃ name attributes rest path, after = .opening name attributes :: rest ∧
    before.foldlM pathBehind [] = some path ∧ path.length = n

variable {n : Nat} {events before after : List Event} {event : Event} {path : List String}

lemma shallow_nil (n : Nat) : Shallow n [] := by
  intro outer inner name attributes path h
  simp at h

lemma Shallow.of_append (h : Shallow n (before ++ after)) : Shallow n before :=
  fun outer inner name attributes path hbefore =>
    h outer (inner ++ after) name attributes path
      (by rw [hbefore, List.append_assoc, List.cons_append])

/-- One more event, provided that it does not open an element that is too deep. -/
lemma Shallow.concat (h : Shallow n before) (hevent : ∀ name attributes,
    event = .opening name attributes → ∀ path, before.foldlM pathBehind [] = some path →
      path.length ≠ n) : Shallow n (before ++ [event]) := by
  intro outer inner name attributes path hsplit hpath
  rcases List.eq_nil_or_concat inner with rfl | ⟨inner, last, rfl⟩
  · obtain ⟨rfl, hlast⟩ := List.append_inj' hsplit rfl
    exact hevent name attributes (List.cons.inj hlast).1 path hpath
  · have hsplit' : before ++ [event] = (outer ++ .opening name attributes :: inner) ++ [last] := by
      simpa using hsplit
    exact h _ _ _ _ _ (List.append_inj' hsplit' rfl).1 hpath

/-- No more than `n` elements are ever open, for one more would have to open inside `n` others. -/
lemma Shallow.length_le (h : Shallow n events) (hpath : events.foldlM pathBehind [] = some path) :
    path.length ≤ n := by
  induction events using List.reverseRecOn generalizing path with
  | nil =>
    cases hpath
    exact Nat.zero_le n
  | append_singleton events event ih =>
    obtain ⟨path', hpath', hlast⟩ := exists_path_of_concat hpath
    have hle : path'.length ≤ n := ih h.of_append hpath'
    cases event with
    | opening name attributes =>
      cases hlast
      have hne : path'.length ≠ n := h _ _ _ _ _ rfl hpath'
      rw [List.length_cons]
      omega
    | closing name text =>
      rw [pathBehind] at hlast
      split_ifs at hlast
      cases hlast
      rw [List.length_tail]
      omega

lemma Shallow.mono {m : Nat} (h : Shallow n events) (hnm : n ≤ m) : Shallow m events := by
  intro outer inner name attributes path hevents hpath hlength
  have houter : Shallow n outer := Shallow.of_append (hevents ▸ h)
  have hle := houter.length_le hpath
  have hne := h _ _ _ _ _ hevents hpath
  omega

/-- Events can be cut, wherever one begins to look for an element that is too deep. -/
lemma exists_cut_of_shallow (h : Shallow n before) (after : List Event)
    (hpath : ∀ {outer inner : List Event}, before ++ after = outer ++ inner →
      ∃ path, outer.foldlM pathBehind [] = some path) :
    ∃ before' after', Cut n (before ++ after) before' after' := by
  induction after generalizing before with
  | nil => exact ⟨before, [], rfl, h, .inl rfl⟩
  | cons event rest ih =>
    obtain ⟨path, hbefore⟩ := hpath rfl
    have hgo : (∀ name attributes, event = .opening name attributes →
        ∀ path, before.foldlM pathBehind [] = some path → path.length ≠ n) →
        ∃ before' after', Cut n (before ++ event :: rest) before' after' := by
      intro hevent
      have hsplit : before ++ event :: rest = (before ++ [event]) ++ rest := by simp
      rw [hsplit] at hpath ⊢
      exact ih (h.concat hevent) hpath
    cases event with
    | closing name text => exact hgo (by simp)
    | opening name attributes =>
      by_cases hlength : path.length = n
      · exact ⟨before, _, rfl, h, .inr ⟨name, attributes, rest, path, rfl, hbefore, hlength⟩⟩
      · refine hgo fun _ _ _ path' hpath' => ?_
        cases hbefore.symm.trans hpath'
        exact hlength

/-- The events of an element can be cut. -/
theorem exists_cut (n : Nat) (e : Element) : ∃ before after, Cut n e.events before after := by
  refine exists_cut_of_shallow (shallow_nil n) e.events fun h => ?_
  obtain ⟨path, hpath, -⟩ := exists_path h
  exact ⟨path, hpath⟩

end CloudCodec.Xml

namespace CloudCodec.Decode

open Xml

variable {σ : Type} [Receiver σ]

namespace Dispatch

variable {limit : Option Nat} {n : Nat} {before after : List Event} {event : Event}
  {d : Dispatch σ} {path : List String}

/-! ### One event -/

/-- A limit stops nothing but an opening that it is reached by. -/
lemma step_eq_step_none (h : ∀ name attributes, event = .opening name attributes →
    ∀ n, limit = some n → d.frames.length < n) : step limit event d = step none event d := by
  obtain ⟨root, frames, claimed⟩ := d
  cases event with
  | opening name attributes =>
    have hlimit : ∀ n, limit = some n → frames.length < n := h name attributes rfl
    rw [step_opening hlimit, step_opening (by simp)]
  | closing name text => rfl

/-! ### Lists of events -/

/-- As long as no element opens too deep, a limit makes no difference. -/
theorem run_eq_run_none (h : Shallow n before) (hpath : before.foldlM pathBehind [] = some path)
    (root : σ) : run (some n) before (start root) = run none before (start root) := by
  induction before using List.reverseRecOn generalizing path with
  | nil => rfl
  | append_singleton before event ih =>
    obtain ⟨path', hpath', -⟩ := exists_path_of_concat hpath
    rw [run_append, run_append, ih h.of_append hpath']
    cases hrun : run none before (start root) with
    | error e d => rfl
    | ok _ d =>
      simp only [run_singleton]
      refine step_eq_step_none ?_
      rintro name attributes rfl m hm
      cases hm
      have hlength : d.frames.length = path'.length := (tracks_run hpath' hrun).length_frames
      have hle : path'.length ≤ n := h.of_append.length_le hpath'
      have hne : path'.length ≠ n := h _ _ _ _ _ rfl hpath'
      omega

/-- The opening of an element that is too deep stops the dispatch. -/
lemma run_some_of_cut {events : List Event} (h : Cut n events before after)
    (hpath : before.foldlM pathBehind [] = some path) (root : σ) :
    run (some n) events (start root)
      = match run none before (start root) with
        | .ok _ d => if after.isEmpty then .ok () d else .error (.depthExceeded n) d
        | .error e d => .error e d := by
  rw [h.eq_append, run_append, run_eq_run_none h.shallow hpath]
  cases hrun : run none before (start root) with
  | error e d => rfl
  | ok _ d =>
    rcases h.deep with rfl | ⟨name, attributes, rest, path', rfl, hpath', hlength⟩
    · rfl
    · have hframes : n ≤ d.frames.length := by
        rw [(tracks_run hpath' hrun).length_frames, hlength]
      obtain ⟨root', frames, claimed⟩ := d
      simp only [run_cons, step_opening_of_le hframes]
      rfl

end Dispatch

/-! ### Documents -/

variable {n : Nat} {e : Element} {before after : List Event}

/-- Under a limit the events before an element that is too deep are dispatched as they are without
a limit, and only then is the element refused. -/
theorem dispatch_eq_of_cut (h : Cut n e.events before after) :
    (dispatch (some n) e.events : EStateM Error σ Unit)
      = (do
        dispatch none before
        unless after.isEmpty do
          throw (.depthExceeded n)) := by
  obtain ⟨path, hpath, -⟩ := exists_path h.eq_append
  funext root
  simp only [bind, EStateM.bind, dispatch_eq_run, Dispatch.run_some_of_cut h hpath root]
  cases Dispatch.run none before (Dispatch.start root) with
  | error e d => rfl
  | ok _ d =>
    cases after with
    | nil => rfl
    | cons event rest => rfl

/-- What succeeds under a limit is what happens without one, and under every larger limit. -/
theorem dispatch_eq_of_le {root root' : σ} (h : dispatch (some n) e.events root = .ok () root') :
    dispatch none e.events root = .ok () root' ∧
      ∀ m, n ≤ m → dispatch (some m) e.events root = .ok () root' := by
  obtain ⟨before, after, hcut⟩ := exists_cut n e
  have hdispatch := h
  rw [dispatch_eq_of_cut hcut] at hdispatch
  simp only [bind, EStateM.bind] at hdispatch
  cases hbefore : (dispatch none before : EStateM Error σ Unit) root with
  | error error root'' =>
    rw [hbefore] at hdispatch
    cases hdispatch
  | ok _ root'' =>
    rw [hbefore] at hdispatch
    -- nothing was refused, so no element is too deep, for a larger limit either
    cases after with
    | cons event rest => cases hdispatch
    | nil =>
      cases hdispatch
      obtain rfl : e.events = before := by simpa using hcut.eq_append
      refine ⟨hbefore, fun m hm => ?_⟩
      rw [dispatch_eq_of_cut ⟨hcut.eq_append, hcut.shallow.mono hm, .inl rfl⟩]
      simp only [bind, EStateM.bind, hbefore]
      rfl

end CloudCodec.Decode
