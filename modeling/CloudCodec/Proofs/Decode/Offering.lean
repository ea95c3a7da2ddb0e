/-
# What is offered to a receiver

A leaf is an element that nobody claimed when it opened.  Whether a receiver claims an element may
depend on its name alone and never change (`Steady`); then a receiver is never offered a leaf of a
name that it claims.  The innermost receiver is the same at the opening and at the closing of an
unclaimed element, so the invariant of a dispatch (`Nest`) remembers, for every element that is open
and was not claimed, that the innermost receiver declines this name.

What becomes of a receiver is therefore told by fewer offers than it could take in (`Takes`): each
of them is an opening, a leaf of a name that is not claimed, or what becomes of the child of a
claimed element.  This holds of every decoding, whether it succeeds or fails (`takes_decode`).
-/
import CloudCodec.Proofs.Decode.Attachment

namespace CloudCodec.Decode

open Xml

variable {σ : Type} [Receiver σ] {r s t root : σ} {name text : String}

/-- Whether a receiver claims an element depends on the name of the element alone, and stays so. -/
def Steady (σ : Type) [Receiver σ] : Prop :=
  ∀ {r s : σ}, Evolves r s → ∀ (name : String) (attributes attributes' : Attributes),
    (Receiver.claim s name attributes).1 = (Receiver.claim r name attributes').1

/-- The receiver claims no element of this name. -/
def Declines (r : σ) (name : String) : Prop :=
  ∀ attributes, (Receiver.claim r name attributes).1 = false

lemma Declines.evolves (hsteady : Steady σ) (h : Declines r name) (h' : Evolves r s) :
    Declines s name := by
  intro attributes
  rw [hsteady h' name attributes attributes]
  exact h attributes

/-- What becomes of a receiver that takes in openings, leaves of names that it does not claim, and
what becomes of the children of the elements that it claims. -/
inductive Takes : σ → σ → Prop
  | refl (r : σ) : Takes r r
  | opening {r s : σ} (name : String) (attributes : Attributes) :
      Takes r s → Takes r (Receiver.claim s name attributes).2
  | leaf {r s t : σ} {name text : String} :
      Takes r s → Declines s name → Receiver.takeLeaf name text s = .ok () t → Takes r t
  | inside {r s s' c c' : σ} {name : String} {attributes : Attributes} :
      Takes r s → Receiver.claim s name attributes = (true, s') →
      Receiver.child? s' name = some c → Takes c c' →
      Takes r (Receiver.withChild s' name c')

namespace Takes

lemma trans (h : Takes r s) (h' : Takes s t) : Takes r t := by
  induction h' with
  | refl => exact h
  | opening name attributes _ ih => exact .opening name attributes (ih h)
  | leaf _ hdeclines htake ih => exact .leaf (ih h) hdeclines htake
  | inside _ hclaim hchild hc ih _ => exact .inside (ih h) hclaim hchild hc

lemma evolves (h : Takes r s) : Evolves r s := by
  induction h with
  | refl => exact .refl _
  | opening name attributes _ ih => exact .opening name attributes ih
  | @leaf _ s t name text _ _ htake ih =>
    have hleaf := Evolves.leaf name text ih
    rwa [leave_of_eq_ok htake] at hleaf
  | inside _ hclaim hchild _ ih ihc => exact .inside ih hclaim hchild ihc

lemma of_claim {isClaimed : Bool} {attributes : Attributes}
    (h : Receiver.claim r name attributes = (isClaimed, s)) : Takes r s := by
  have hopening := Takes.opening name attributes (.refl r)
  rwa [h] at hopening

end Takes

/-! ### Open elements -/

/-- The names of the claimed ones among some elements. -/
def claimedNames (elements : List (String × Bool)) : List String :=
  (elements.filter Prod.snd).map Prod.fst

/-- The elements that are open, innermost first, each with whether it was claimed, the innermost
receiver, and how it is put back into the root.  The child of a claimed element was handed out when
it opened; an element that is not claimed is one that the innermost receiver declines. -/
inductive Nest (root : σ) : List (String × Bool) → (σ → σ) → σ → Prop
  | root {r : σ} : Takes root r → Nest root [] id r
  | claimed {elements : List (String × Bool)} {put : σ → σ} {r r' c c' : σ} {name : String}
      {attributes : Attributes} :
      Nest root elements put r → Receiver.claim r name attributes = (true, r') →
      KeepsChild r' name c → Takes c c' →
      Nest root ((name, true) :: elements) (fun c => put (Receiver.withChild r' name c)) c'
  | unclaimed {elements : List (String × Bool)} {put : σ → σ} {r r' : σ} {name : String} :
      Nest root elements put r → Declines r name → Takes r r' →
      Nest root ((name, false) :: elements) put r'

namespace Nest

variable {elements : List (String × Bool)} {put : σ → σ}

lemma takes (h : Nest root elements put r) (h' : Takes r s) : Nest root elements put s := by
  cases h with
  | root hr => exact .root (hr.trans h')
  | claimed hr hclaim hkeep hc => exact .claimed hr hclaim hkeep (hc.trans h')
  | unclaimed hr hdeclines hr' => exact .unclaimed hr hdeclines (hr'.trans h')

/-- The claimed elements are a chain. -/
lemma chain (h : Nest root elements put r) : Chain root (claimedNames elements) put r := by
  induction h with
  | root hr => exact .root hr.evolves
  | claimed _ hclaim hkeep hc ih => exact .child ih hclaim hkeep hc.evolves
  | unclaimed _ _ hr ih => exact ih.evolves hr.evolves

/-- What the innermost receiver takes in, the root takes in. -/
lemma takes_root (h : Nest root elements put r) (h' : Takes r s) : Takes root (put s) := by
  induction h generalizing s with
  | root hr => exact hr.trans h'
  | claimed _ hclaim hkeep hc ih => exact ih (.inside (.refl _) hclaim hkeep.child? (hc.trans h'))
  | unclaimed _ _ hr ih => exact ih (hr.trans h')

/-- Without a claimed element the innermost receiver is the one that claimed it. -/
lemma of_claimed (h : Nest root ((name, true) :: elements) put r) :
    ∃ put' r', Nest root elements put' r' ∧ put' r' = put r := by
  cases h with
  | claimed hr hclaim hkeep hc =>
    exact ⟨_, _, hr.takes (.inside (.refl _) hclaim hkeep.child? hc), rfl⟩

/-- Without an unclaimed element the innermost receiver is the same, and it declines the element. -/
lemma of_unclaimed (hsteady : Steady σ) (h : Nest root ((name, false) :: elements) put r) :
    Nest root elements put r ∧ Declines r name := by
  cases h with
  | unclaimed hr hdeclines hr' => exact ⟨hr.takes hr', hdeclines.evolves hsteady hr'.evolves⟩

end Nest

namespace Dispatch

variable {limit : Option Nat} {event : Event} {events : List Event} {d d' : Dispatch σ}
  {path path' : List String}

/-- The open elements of a dispatch are nested in its root: their names are those of a path, and
each of them has a frame, which says whether it is claimed. -/
def Nested (root : σ) (path : List String) (d : Dispatch σ) : Prop :=
  ∃ elements put r, Nest root elements put r ∧ d.root = put r ∧ path = elements.map Prod.fst ∧
    d.frames.map Frame.isClaimed = elements.map Prod.snd ∧ d.claimed = claimedNames elements

lemma nested_start (root : σ) : Nested root [] (start root) :=
  ⟨[], id, root, .root (.refl root), rfl, rfl, rfl, rfl⟩

lemma Nested.takes_root (h : Nested root path d) : Takes root d.root := by
  obtain ⟨elements, put, r, hnest, hroot, -⟩ := h
  rw [hroot]
  exact hnest.takes_root (.refl r)

/-- One more event that fits the open elements. -/
theorem Nested.step (hsteady : Steady σ) (hattaches : Attaches root) (h : Nested root path d)
    (hpath : pathBehind path event = some path') (hstep : step limit event d = .ok () d') :
    Nested root path' d' := by
  obtain ⟨droot, frames, claimed⟩ := d
  obtain ⟨elements, put, r, hnest, hroot, rfl, hframes, hclaimed⟩ := h
  simp only at hroot hframes hclaimed
  subst hroot hclaimed
  obtain ⟨name, attributes, isClaimed, r', rfl, hclaim, rfl⟩ |
    ⟨name, text, hasChildren, rest, rfl, rfl, rfl⟩ | ⟨name, text, rest, rfl, rfl, rfl⟩ |
    ⟨name, text, rest, r', rfl, rfl, htake, rfl⟩ := of_step_eq_ok hnest.chain.focus hstep
  · cases hpath
    cases isClaimed with
    | true =>
      obtain ⟨c, hkeep⟩ := hattaches hnest.chain.occurs hclaim
      refine ⟨(name, true) :: elements, _, c, .claimed hnest hclaim hkeep (.refl c), ?_, rfl,
        ?_, ?_⟩
      · rw [hkeep.withChild_self]
      · simp [map_isClaimed_markParent, hframes]
      · simp [claimedNames]
    | false =>
      have hdeclines : Declines r name := by
        intro attributes'
        rw [hsteady (.refl r) name attributes' attributes, hclaim]
      refine ⟨(name, false) :: elements, put, r', .unclaimed hnest hdeclines (.of_claim hclaim),
        rfl, rfl, ?_, ?_⟩
      · simp [map_isClaimed_markParent, hframes]
      · simp [claimedNames]
  all_goals
    obtain ⟨⟨name', isClaimed⟩, elements, rfl, hhead, htail⟩ := List.map_eq_cons_iff.1 hframes.symm
    cases hhead
    rw [pathBehind] at hpath
    split_ifs at hpath with hname
    cases hpath
    obtain rfl : name' = name := by simpa using hname
  · obtain ⟨put', r', hnest', hput⟩ := hnest.of_claimed
    refine ⟨elements, put', r', hnest', hput.symm, rfl, htail.symm, ?_⟩
    simp [claimedNames]
  · obtain ⟨hnest', -⟩ := hnest.of_unclaimed hsteady
    refine ⟨elements, put, r, hnest', rfl, rfl, htail.symm, ?_⟩
    simp [claimedNames]
  · obtain ⟨hnest', hdeclines⟩ := hnest.of_unclaimed hsteady
    refine ⟨elements, put, r', hnest'.takes (.leaf (.refl r) hdeclines htake), rfl, rfl, htail.symm,
      ?_⟩
    simp [claimedNames]

/-- Any number of events that fit. -/
theorem nested_run (hsteady : Steady σ) (hattaches : Attaches root)
    (hpath : events.foldlM pathBehind [] = some path)
    (hrun : run limit events (start root) = .ok () d) : Nested root path d := by
  induction events using List.reverseRecOn generalizing path d with
  | nil =>
    cases hpath
    cases hrun
    exact nested_start root
  | append_singleton events event ih =>
    obtain ⟨mid, hmid, hevent⟩ := exists_path_of_concat hpath
    obtain ⟨d', hd', hstep⟩ := exists_of_run_append hrun
    rw [run_singleton] at hstep
    exact (ih hmid hd').step hsteady hattaches hevent hstep

end Dispatch

/-- What a decoding leaves behind, whether it succeeds or fails, is what becomes of the root by
openings, by leaves of names that are not claimed, and inside of claimed elements. -/
theorem takes_decode (hspares : Spares σ) (hsteady : Steady σ) (hattaches : Attaches root)
    (settings : Settings) (bytes : List UInt8) :
    Takes root (leave (decode settings bytes) root) := by
  cases hdocument : Event.ofDocument settings.trim bytes with
  | error fault =>
    have hdecode : decode settings bytes root = .error (.malformed fault) root := by
      simp only [decode, hdocument]
      rfl
    rw [leave_of_eq_error hdecode]
    exact .refl root
  | ok events =>
    obtain ⟨e, rfl⟩ := exists_eq_events hdocument
    have hdecode : decode settings bytes root = dispatch settings.maxDepth e.events root := by
      simp only [decode, hdocument]
    rw [leave, hdecode, dispatch_eq_run]
    cases hrun : Dispatch.run settings.maxDepth e.events (Dispatch.start root) with
    | ok _ d =>
      exact (Dispatch.nested_run hsteady hattaches (foldlM_events e []) hrun).takes_root
    | error error d =>
      obtain ⟨before, event, after, mid, hevents, hbefore, hstep⟩ :=
        Dispatch.exists_of_run_eq_error hrun
      obtain ⟨path, hpath, -⟩ := exists_path hevents
      have hroot : d.root = mid.root := (Dispatch.step_eq_error hspares hstep).1
      simp only [hroot]
      exact (Dispatch.nested_run hsteady hattaches hpath hbefore).takes_root

end CloudCodec.Decode
