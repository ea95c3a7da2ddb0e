/-
# The way to the innermost receiver

For every event a dispatch finds the innermost receiver anew: it starts at the root and goes along
the names of the claimed open elements, each time to the child under the name.  This works out as
long as a receiver keeps the child that it handed out when it claimed an element (`Attaches`).
Then every prefix of the claimed names leads to a child that was handed out at an opening, as the
events since have left it (`Chain`), and each event keeps this up (`Attached.step`).

A piece of a document that closes only what it opens acts on that child alone: its dispatch from
the root is its dispatch from the child, put back (`run_inside`).  So what is found along the names
up to a claimed open element is the child that was handed out for it, after the events inside were
dispatched to it and to nobody else (`leads_of_run`).
-/
import CloudCodec.Proofs.Decode.Descent
import CloudCodec.Proofs.Decode.Limit
import CloudCodec.Proofs.Xml.Brackets

namespace CloudCodec.Decode

open Xml

variable {σ α : Type} [Receiver σ]

/-- The receiver to which some names lead, outermost first, each name to the child under it. -/
def follow (r : σ) (names : List String) : Option σ := names.foldlM Receiver.child? r

lemma follow_cons (r : σ) (name : String) (names : List String) :
    follow r (name :: names) = (Receiver.child? r name).bind fun c => follow c names := by
  rw [follow, List.foldlM_cons]
  rfl

/-- Whenever a receiver claims an element, at any level of nesting, it keeps the child of that
element. -/
def Attaches (root : σ) : Prop :=
  ∀ {r r' : σ} {name : String} {attributes : Attributes}, Occurs root r →
    Receiver.claim r name attributes = (true, r') → ∃ c, KeepsChild r' name c

/-- A receiver that an act can reach is found along the names. -/
lemma follow_of_reaching {r r' c : σ} {names : List String}
    (h : reaching names (get : EStateM Error σ σ) r = .ok c r') : follow r names = some c := by
  induction names generalizing r r' with
  | nil =>
    cases h
    rfl
  | cons name names ih =>
    rw [follow_cons]
    cases hchild : Receiver.child? r name with
    | none =>
      rw [reaching_cons_of_none hchild] at h
      cases h
    | some child =>
      rw [reaching_cons_of_some hchild] at h
      cases hin : reaching names (get : EStateM Error σ σ) child with
      | ok c' child' =>
        rw [hin] at h
        cases h
        exact ih hin
      | error e child' =>
        rw [hin] at h
        cases h

lemma Focus.follow_eq {names : List String} {put : σ → σ} {c : σ} (h : Focus names put c) :
    follow (put c) names = some c :=
  follow_of_reaching (h (.refl c) get)

/-- What an act does behind more names is what it does behind the last of them, in focus. -/
lemma Focus.reaching_append {names : List String} {put : σ → σ} {c : σ} (h : Focus names put c)
    (inner : List String) (act : EStateM Error σ α) :
    reaching (names ++ inner) act (put c) = putInto put (reaching inner act c) := by
  have happend : reaching (names ++ inner) act = reaching names (reaching inner act) := by
    induction inner using List.reverseRecOn generalizing act with
    | nil => rw [List.append_nil, reaching_nil]
    | append_singleton inner name ih =>
      rw [← List.append_assoc, Decode.reaching_append, ih, ← Decode.reaching_append]
  rw [happend, h (.refl c)]

lemma Occurs.trans {root r s : σ} (h : Occurs root r) (h' : Occurs r s) : Occurs root s := by
  induction h' with
  | root hs => exact h.evolves hs
  | child _ hclaim hchild hc ih => exact .child ih hclaim hchild hc

lemma Attaches.of_occurs {root r : σ} (h : Attaches root) (hr : Occurs root r) : Attaches r :=
  fun hocc hclaim => h (hr.trans hocc) hclaim

lemma Evolves.of_claim {r r' : σ} {name : String} {attributes : Attributes} {isClaimed : Bool}
    (h : Receiver.claim r name attributes = (isClaimed, r')) : Evolves r r' := by
  have hopening := Evolves.opening name attributes (.refl r)
  rwa [h] at hopening

/-! ### The receivers along the claimed names -/

/-- `names` are those of claimed open elements, innermost first, and `r` is the child that was
handed out for the innermost of them, as it has become since; `put` puts it back into the root. -/
inductive Chain (root : σ) : List String → (σ → σ) → σ → Prop
  | root {r : σ} : Evolves root r → Chain root [] id r
  | child {names : List String} {put : σ → σ} {r r' c c' : σ} {name : String}
      {attributes : Attributes} :
      Chain root names put r → Receiver.claim r name attributes = (true, r') →
      KeepsChild r' name c → Evolves c c' →
      Chain root (name :: names) (fun c => put (Receiver.withChild r' name c)) c'

namespace Chain

variable {root r s : σ} {names : List String} {put : σ → σ}

lemma evolves (h : Chain root names put r) (h' : Evolves r s) : Chain root names put s := by
  cases h with
  | root hr => exact .root (hr.trans h')
  | child hr hclaim hkeep hc => exact .child hr hclaim hkeep (hc.trans h')

lemma occurs (h : Chain root names put r) : Occurs root r := by
  induction h with
  | root hr => exact .root hr
  | child _ hclaim hkeep hc ih => exact .child ih hclaim hkeep.child? hc

lemma focus (h : Chain root names put r) : Focus names.reverse put r := by
  induction h with
  | root hr =>
    intro c' hc' α act
    exact focus_root _ hc' act
  | child _ hclaim hkeep hc ih =>
    rw [List.reverse_cons]
    exact Focus.evolves (Focus.child ih hclaim hkeep) hc

/-- What becomes of the receiver in focus makes the root evolve. -/
lemma evolves_root (h : Chain root names put r) (h' : Evolves r s) : Evolves root (put s) := by
  induction h generalizing s with
  | root hr => exact hr.trans h'
  | child _ hclaim hkeep hc ih => exact ih (.inside (.refl _) hclaim hkeep.child? (hc.trans h'))

/-- Without its innermost element the chain ends at the receiver that claimed it. -/
lemma tail (h : Chain root names put r) :
    ∃ put' r', Chain root names.tail put' r' ∧ put' r' = put r := by
  cases h with
  | root hr => exact ⟨id, r, .root hr, rfl⟩
  | child hr hclaim hkeep hc =>
    exact ⟨_, _, hr.evolves (.inside (.refl _) hclaim hkeep.child? hc), rfl⟩

end Chain

namespace Dispatch

variable {limit : Option Nat} {event : Event} {events inside : List Event} {d d' : Dispatch σ}
  {root r c : σ} {put : σ → σ} {frames : List Frame} {claimed names path : List String}
  {name text : String} {attributes : Attributes} {e : Error}

/-! ### Events that act on the receiver in focus -/

/-- Within the limit the opening of an element is offered to the receiver in focus. -/
lemma step_opening_of_focus (hfocus : Focus claimed.reverse put r)
    (hlimit : ∀ n, limit = some n → frames.length < n) :
    step limit (.opening name attributes) ⟨put r, frames, claimed⟩
      = .ok () ⟨put (Receiver.claim r name attributes).2,
          ⟨(Receiver.claim r name attributes).1, false⟩ :: markParent frames,
          if (Receiver.claim r name attributes).1 then name :: claimed else claimed⟩ := by
  rw [step_opening hlimit, hfocus (.refl r)]
  rfl

/-- A leaf is offered to the receiver in focus. -/
lemma step_leaf_of_focus (hfocus : Focus claimed.reverse put r) :
    step limit (.closing name text) ⟨put r, ⟨false, false⟩ :: frames, claimed⟩
      = putInto (⟨put ·, frames, claimed⟩) (Receiver.takeLeaf name text r) := by
  rw [step_closing_leaf, hfocus (.refl r), putInto_putInto]

/-- What an event does that is taken in while some receiver is in focus: it is offered to that
receiver, or it closes an element without being offered to anyone. -/
lemma of_step_eq_ok (hfocus : Focus claimed.reverse put r)
    (h : step limit event ⟨put r, frames, claimed⟩ = .ok () d') :
    (∃ name attributes isClaimed r', event = .opening name attributes ∧
      Receiver.claim r name attributes = (isClaimed, r') ∧
      d' = ⟨put r', ⟨isClaimed, false⟩ :: markParent frames,
        if isClaimed then name :: claimed else claimed⟩) ∨
    (∃ name text hasChildren rest, event = .closing name text ∧
      frames = ⟨true, hasChildren⟩ :: rest ∧ d' = ⟨put r, rest, claimed.tail⟩) ∨
    (∃ name text rest, event = .closing name text ∧ frames = ⟨false, true⟩ :: rest ∧
      d' = ⟨put r, rest, claimed⟩) ∨
    ∃ name text rest r', event = .closing name text ∧ frames = ⟨false, false⟩ :: rest ∧
      Receiver.takeLeaf name text r = .ok () r' ∧ d' = ⟨put r', rest, claimed⟩ := by
  cases event with
  | opening name attributes =>
    rcases reaches_or_below limit frames.length with ⟨n, rfl, hn⟩ | hlimit
    · rw [step_opening_of_le hn] at h
      cases h
    · rw [step_opening_of_focus hfocus hlimit] at h
      cases h
      exact .inl ⟨name, attributes, _, _, rfl, rfl, rfl⟩
  | closing name text =>
    rcases frames with _ | ⟨⟨isClaimed, hasChildren⟩, rest⟩
    · rw [step_closing_of_nil] at h
      cases h
    · cases isClaimed with
      | true =>
        rw [step_closing_of_claimed] at h
        cases h
        exact .inr (.inl ⟨name, text, hasChildren, rest, rfl, rfl, rfl⟩)
      | false =>
        cases hasChildren with
        | true =>
          rw [step_closing_of_hasChildren] at h
          cases h
          exact .inr (.inr (.inl ⟨name, text, rest, rfl, rfl, rfl⟩))
        | false =>
          rw [step_leaf_of_focus hfocus] at h
          cases htake : Receiver.takeLeaf name text r with
          | ok _ r' =>
            rw [htake] at h
            cases h
            exact .inr (.inr (.inr ⟨name, text, rest, r', rfl, rfl, htake, rfl⟩))
          | error e r' =>
            rw [htake] at h
            cases h

/-! ### The invariant of a dispatch -/

omit [Receiver σ] in
lemma map_isClaimed_markParent (frames : List Frame) :
    (markParent frames).map Frame.isClaimed = frames.map Frame.isClaimed := by
  cases frames <;> rfl

/-- The root of the dispatch is that of a chain along the claimed names, and there is one name for
every claimed frame. -/
structure Attached (root : σ) (d : Dispatch σ) : Prop where
  chain : ∃ put r, Chain root d.claimed put r ∧ d.root = put r
  count_claimed : (d.frames.map Frame.isClaimed).count true = d.claimed.length

lemma attached_start (root : σ) : Attached root (start root) :=
  ⟨⟨id, root, .root (.refl root), rfl⟩, rfl⟩

/-- One more event. -/
theorem Attached.step (hattaches : Attaches root) (h : Attached root d)
    (hstep : step limit event d = .ok () d') : Attached root d' := by
  obtain ⟨droot, frames, claimed⟩ := d
  obtain ⟨⟨put, r, hchain, rfl⟩, hcount⟩ := h
  simp only at hchain hcount
  obtain ⟨name, attributes, isClaimed, r', rfl, hclaim, rfl⟩ |
    ⟨name, text, hasChildren, rest, rfl, rfl, rfl⟩ | ⟨name, text, rest, rfl, rfl, rfl⟩ |
    ⟨name, text, rest, r', rfl, rfl, htake, rfl⟩ := of_step_eq_ok hchain.focus hstep
  · cases isClaimed with
    | true =>
      obtain ⟨c, hkeep⟩ := hattaches hchain.occurs hclaim
      refine ⟨⟨_, c, .child hchain hclaim hkeep (.refl c), ?_⟩, ?_⟩
      · rw [hkeep.withChild_self]
      · simp [map_isClaimed_markParent, hcount]
    | false =>
      refine ⟨⟨put, r', hchain.evolves (.of_claim hclaim), rfl⟩, ?_⟩
      simp [map_isClaimed_markParent, hcount]
  · obtain ⟨put', r', hchain', hput⟩ := hchain.tail
    refine ⟨⟨put', r', hchain', hput.symm⟩, ?_⟩
    rw [List.length_tail, ← hcount]
    simp
  · refine ⟨⟨put, r, hchain, rfl⟩, ?_⟩
    simpa using hcount
  · have hleaf := Evolves.leaf name text (.refl r)
    rw [leave_of_eq_ok htake] at hleaf
    refine ⟨⟨put, r', hchain.evolves hleaf, rfl⟩, ?_⟩
    simpa using hcount

/-- Any number of events. -/
theorem attached_run (hattaches : Attaches root)
    (hrun : run limit events (start root) = .ok () d) : Attached root d := by
  induction events using List.reverseRecOn generalizing d with
  | nil =>
    cases hrun
    exact attached_start root
  | append_singleton events event ih =>
    obtain ⟨mid, hmid, hlast⟩ := exists_of_run_append hrun
    rw [run_singleton] at hlast
    exact (ih hmid).step hattaches hlast

lemma Attached.evolves_root (h : Attached root d) : Evolves root d.root := by
  obtain ⟨put, r, hchain, hroot⟩ := h.chain
  rw [hroot]
  exact hchain.evolves_root (.refl r)

/-- An opening is offered to the innermost receiver. -/
lemma Attached.of_opening (h : Attached root d)
    (hstep : Dispatch.step limit (.opening name attributes) d = .ok () d') :
    ∃ r isClaimed r', follow d.root d.claimed.reverse = some r ∧ Occurs root r ∧
      Receiver.claim r name attributes = (isClaimed, r') ∧
      d'.claimed = if isClaimed then name :: d.claimed else d.claimed := by
  obtain ⟨droot, frames, claimed⟩ := d
  obtain ⟨⟨put, r, hchain, rfl⟩, -⟩ := h
  obtain ⟨_, _, isClaimed, r', hevent, hclaim, rfl⟩ | ⟨_, _, _, _, hevent, -⟩ |
    ⟨_, _, _, hevent, -⟩ | ⟨_, _, _, _, hevent, -⟩ := of_step_eq_ok hchain.focus hstep
  · cases hevent
    exact ⟨r, isClaimed, r', Focus.follow_eq hchain.focus, hchain.occurs, hclaim, rfl⟩
  · cases hevent
  · cases hevent
  · cases hevent

/-- A closing gives up the innermost claimed name, or none. -/
lemma Attached.prefix_of_closing (h : Attached root d)
    (hstep : Dispatch.step limit (.closing name text) d = .ok () d') :
    d'.claimed.reverse <+: d.claimed.reverse := by
  obtain ⟨droot, frames, claimed⟩ := d
  obtain ⟨⟨put, r, hchain, rfl⟩, -⟩ := h
  obtain ⟨_, _, _, _, hevent, -, -⟩ | ⟨_, _, _, _, -, -, rfl⟩ | ⟨_, _, _, -, -, rfl⟩ |
    ⟨_, _, _, _, -, -, -, rfl⟩ := of_step_eq_ok hchain.focus hstep
  · cases hevent
  · exact List.reverse_prefix.2 (List.tail_suffix claimed)
  · exact List.prefix_rfl
  · exact List.prefix_rfl

/-- The innermost receiver is found for every event. -/
theorem Attached.ne_detachedChild (hspares : Spares σ) (h : Attached root d)
    (hstep : Dispatch.step limit event d = .error e d') (name : String) :
    e ≠ .detachedChild name := by
  obtain ⟨droot, frames, claimed⟩ := d
  obtain ⟨⟨put, r, hchain, rfl⟩, -⟩ := h
  have hfocus : Focus claimed.reverse put r := hchain.focus
  rintro rfl
  cases event with
  | opening name' attributes =>
    rcases reaches_or_below limit frames.length with ⟨n, rfl, hn⟩ | hlimit
    · rw [step_opening_of_le hn] at hstep
      cases hstep
    · rw [step_opening_of_focus hfocus hlimit] at hstep
      cases hstep
  | closing name' text =>
    obtain _ | ⟨⟨_ | _, _ | _⟩, rest⟩ := frames
    · rw [step_closing_of_nil] at hstep
      cases hstep
    · rw [step_leaf_of_focus hfocus] at hstep
      cases htake : Receiver.takeLeaf name' text r with
      | ok _ r' =>
        rw [htake] at hstep
        cases hstep
      | error e r' =>
        rw [htake] at hstep
        cases hstep
        obtain ⟨-, domain, hdomain⟩ := hspares.takeLeaf_eq_error htake
        cases hdomain
    · rw [step_closing_of_hasChildren] at hstep
      cases hstep
    · rw [step_closing_of_claimed] at hstep
      cases hstep
    · rw [step_closing_of_claimed] at hstep
      cases hstep

/-! ### Pieces that stay inside a claimed element -/

/-- An event inside a claimed element acts on the child of that element alone: the dispatch of the
child, around which the frames and names outside stay, takes it in as well. -/
lemma step_inside {outside : List Frame} (hfocus : Focus claimed.reverse put d.root)
    (hclosing : ∀ name text, event = .closing name text → d.frames ≠ [])
    (hcount : (d.frames.map Frame.isClaimed).count true = d.claimed.length)
    (h : step limit event ⟨put d.root, d.frames ++ outside, d.claimed ++ claimed⟩ = .ok () d') :
    ∃ d₁ outside₁, step none event d = .ok () d₁ ∧
      outside₁.map Frame.isClaimed = outside.map Frame.isClaimed ∧
      d' = ⟨put d₁.root, d₁.frames ++ outside₁, d₁.claimed ++ claimed⟩ := by
  obtain ⟨root, frames, inner⟩ := d
  simp only at hfocus hclosing hcount h
  have hreaching : ∀ {α : Type} (act : EStateM Error σ α),
      reaching (inner ++ claimed).reverse act (put root)
        = putInto put (reaching inner.reverse act root) := by
    intro α act
    rw [List.reverse_append, hfocus.reaching_append]
  cases event with
  | opening name attributes =>
    rcases reaches_or_below limit (frames ++ outside).length with ⟨n, rfl, hn⟩ | hlimit
    · rw [step_opening_of_le hn] at h
      cases h
    · rw [step_opening hlimit, hreaching] at h
      rw [step_opening (by simp)]
      cases hoffer : reaching inner.reverse (offerOpening name attributes) root with
      | error e root' =>
        rw [hoffer] at h
        cases h
      | ok isClaimed root' =>
        rw [hoffer] at h
        cases h
        -- the first element inside marks the frame of the claimed element itself
        obtain _ | ⟨frame, rest⟩ := frames
        · exact ⟨_, markParent outside, rfl, map_isClaimed_markParent outside,
            by cases isClaimed <;> rfl⟩
        · exact ⟨_, outside, rfl, rfl, by cases isClaimed <;> rfl⟩
  | closing name text =>
    obtain _ | ⟨⟨isClaimed, hasChildren⟩, rest⟩ := frames
    · exact absurd rfl (hclosing name text rfl)
    · rw [List.cons_append] at h
      cases isClaimed with
      | true =>
        rw [step_closing_of_claimed] at h
        cases h
        obtain _ | ⟨first, inner⟩ := inner
        · simp at hcount
        · exact ⟨_, outside, step_closing_of_claimed, rfl, rfl⟩
      | false =>
        cases hasChildren with
        | true =>
          rw [step_closing_of_hasChildren] at h
          cases h
          exact ⟨_, outside, step_closing_of_hasChildren, rfl, rfl⟩
        | false =>
          rw [step_closing_leaf, hreaching] at h
          rw [step_closing_leaf]
          cases htake : reaching inner.reverse (Receiver.takeLeaf name text) root with
          | error e root' =>
            rw [htake] at h
            cases h
          | ok _ root' =>
            rw [htake] at h
            cases h
            exact ⟨_, outside, rfl, rfl, rfl⟩

/-- Events inside a claimed element, which close only what they open. -/
theorem run_inside {outside : List Frame} (hattaches : Attaches c)
    (hfocus : Focus claimed.reverse put c) (hpath : inside.foldlM pathBehind [] = some path)
    (h : run limit inside ⟨put c, outside, claimed⟩ = .ok () d) :
    ∃ d₁ outside₁, run none inside (start c) = .ok () d₁ ∧
      outside₁.map Frame.isClaimed = outside.map Frame.isClaimed ∧
      d = ⟨put d₁.root, d₁.frames ++ outside₁, d₁.claimed ++ claimed⟩ := by
  induction inside using List.reverseRecOn generalizing path d with
  | nil =>
    cases h
    exact ⟨start c, outside, rfl, rfl, rfl⟩
  | append_singleton inside event ih =>
    obtain ⟨path', hpath', hlast⟩ := exists_path_of_concat hpath
    obtain ⟨mid, hmid, hstep⟩ := exists_of_run_append h
    rw [run_singleton] at hstep
    obtain ⟨d₁, outside₁, hrun, houtside, rfl⟩ := ih hpath' hmid
    have hattached : Attached c d₁ := attached_run hattaches hrun
    have hclosing : ∀ name text, event = .closing name text → d₁.frames ≠ [] := by
      rintro name text rfl hframes
      have hlength : d₁.frames.length = path'.length := (tracks_run hpath' hrun).length_frames
      obtain rfl : path' = [] := by simpa [hframes] using hlength.symm
      simp [pathBehind] at hlast
    obtain ⟨d₂, outside₂, hstep₂, houtside₂, rfl⟩ :=
      step_inside (hfocus.evolves hattached.evolves_root) hclosing hattached.count_claimed hstep
    refine ⟨d₂, outside₂, ?_, houtside₂.trans houtside, rfl⟩
    rw [run_append, hrun]
    simpa only [run_singleton] using hstep₂

/-! ### The children that are handed out -/

/-- Among the events stands the opening of an element that is still open behind all of them; the
events `inside` follow it.  It was offered to the receiver that was innermost then, who claimed it
and handed out the child `c`.  `names` are those of the claimed open elements up to this one,
outermost first. -/
inductive HandsOut (limit : Option Nat) (root : σ) :
    List Event → List String → List Event → σ → Prop
  | intro {outer inside : List Event} {name : String} {attributes : Attributes}
      {path : List String} {d : Dispatch σ} {r r' c : σ}
      (hrun : run limit outer (start root) = .ok () d)
      (hr : follow d.root d.claimed.reverse = some r)
      (hclaim : Receiver.claim r name attributes = (true, r'))
      (hchild : Receiver.child? r' name = some c)
      (hopen : inside.foldlM pathBehind [] = some path) :
      HandsOut limit root (outer ++ .opening name attributes :: inside)
        (d.claimed.reverse ++ [name]) inside c

/-- Behind some events the claimed names lead from the root to the children that were handed out:
every one of them has its opening, and what is found along the names up to it is the child that was
handed out there, after the events inside. -/
structure Leads (limit : Option Nat) (root : σ) (events : List Event) (d : Dispatch σ) :
    Prop where
  exists_innermost : ∃ r, follow d.root d.claimed.reverse = some r
  exists_handsOut : ∀ {names : List String}, names ≠ [] → names <+: d.claimed.reverse →
    ∃ inside c, HandsOut limit root events names inside c
  follow_eq : ∀ {names : List String} {inside : List Event} {c : σ},
    HandsOut limit root events names inside c → names <+: d.claimed.reverse ∧
      ∃ c', dispatch none inside c = .ok () c' ∧ follow d.root names = some c'

lemma HandsOut.exists_path (h : HandsOut limit root events names inside c) :
    ∃ path, inside.foldlM pathBehind [] = some path := by
  cases h with
  | intro hrun hr hclaim hchild hopen => exact ⟨_, hopen⟩

/-- One more event that does not close the element. -/
lemma HandsOut.concat (h : HandsOut limit root events names inside c)
    (hpath : (inside ++ [event]).foldlM pathBehind [] = some path) :
    HandsOut limit root (events ++ [event]) names (inside ++ [event]) c := by
  cases h with
  | intro hrun hr hclaim hchild hopen =>
    rw [List.append_assoc, List.cons_append]
    exact .intro hrun hr hclaim hchild hpath

/-- The state of a dispatch inside a claimed element is that of a dispatch to the child, put back
behind the frame of the element. -/
lemma HandsOut.exists_inside (hattaches : Attaches root)
    (h : HandsOut limit root events names inside c)
    (hrun : run limit events (start root) = .ok () d) :
    ∃ put d₁ hasChildren outside, run none inside (start c) = .ok () d₁ ∧
      Focus names put d₁.root ∧ Attached c d₁ ∧
      d = ⟨put d₁.root, d₁.frames ++ ⟨true, hasChildren⟩ :: outside,
        d₁.claimed ++ names.reverse⟩ := by
  cases h with
  | @intro outer _ name attributes path d₀ r r' _ hrun₀ hr hclaim hchild hopen =>
    obtain ⟨mid, hmid, hrest⟩ := exists_of_run_append hrun
    cases hrun₀.symm.trans hmid
    obtain ⟨⟨put, r₀, hchain, hroot⟩, -⟩ := attached_run hattaches hrun₀
    obtain ⟨droot, frames, claimed⟩ := d₀
    simp only at hr hchain hroot hrest ⊢
    subst hroot
    cases (Focus.follow_eq hchain.focus).symm.trans hr
    -- the opening hands out the child, which is in focus from then on
    obtain ⟨k, hkeep⟩ := hattaches hchain.occurs hclaim
    cases hkeep.child?.symm.trans hchild
    have hfocus :
        Focus (claimed.reverse ++ [name]) (fun c => put (Receiver.withChild r' name c)) c :=
      Focus.child hchain.focus hclaim hkeep
    have hfocus' : Focus (name :: claimed).reverse
        (fun c => put (Receiver.withChild r' name c)) c := by
      rwa [List.reverse_cons]
    have hocc : Occurs root c := .child hchain.occurs hclaim hchild (.refl c)
    rw [run_cons] at hrest
    rcases reaches_or_below limit frames.length with ⟨n, rfl, hn⟩ | hlimit
    · rw [step_opening_of_le hn] at hrest
      cases hrest
    · rw [step_opening_of_focus hchain.focus hlimit, hclaim, ← hkeep.withChild_self] at hrest
      obtain ⟨d₁, outside₁, hrun₁, houtside, rfl⟩ :=
        run_inside (hattaches.of_occurs hocc) hfocus' hopen hrest
      have hattached : Attached c d₁ := attached_run (hattaches.of_occurs hocc) hrun₁
      obtain ⟨⟨isClaimed, hasChildren⟩, outside, rfl, hframe, -⟩ :=
        List.map_eq_cons_iff.1 (houtside.trans List.map_cons)
      cases hframe
      refine ⟨_, d₁, hasChildren, outside, hrun₁, hfocus.evolves hattached.evolves_root,
        hattached, ?_⟩
      simp

/-- A closing inside a claimed element whose name stays claimed does not close that element. -/
lemma HandsOut.exists_path_of_closing (hattaches : Attaches root)
    (h : HandsOut limit root events names inside c)
    (hrun : run limit events (start root) = .ok () d)
    (hpath : (events ++ [Event.closing name text]).foldlM pathBehind [] = some path)
    (hstep : step limit (.closing name text) d = .ok () d')
    (hnames : names <+: d'.claimed.reverse) :
    ∃ path', (inside ++ [Event.closing name text]).foldlM pathBehind [] = some path' := by
  obtain ⟨put, d₁, hasChildren, outside, hrun₁, -, hattached, rfl⟩ :=
    h.exists_inside hattaches hrun
  cases h with
  | @intro outer _ name' attributes inner d₀ r r' _ hrun₀ hr hclaim hchild hopen =>
    have hlength : d₁.frames.length = inner.length := (tracks_run hopen hrun₁).length_frames
    rw [List.foldlM_append, hopen]
    cases inner with
    | nil =>
      -- the innermost frame is that of the claimed element, so its name is given up
      exfalso
      obtain ⟨root₁, frames₁, claimed₁⟩ := d₁
      obtain rfl : frames₁ = [] := List.length_eq_zero_iff.1 hlength
      obtain rfl : claimed₁ = [] := by simpa using hattached.count_claimed.symm
      rw [List.nil_append, step_closing_of_claimed] at hstep
      cases hstep
      have hle := hnames.length_le
      simp at hle
    | cons first inner =>
      obtain ⟨whole, hwhole, hlast⟩ := exists_path_of_concat hpath
      rw [List.foldlM_append] at hwhole
      obtain ⟨path₀, -, hrest⟩ := Option.bind_eq_some_iff.1 hwhole
      have hinside := foldlM_pathBehind_append hopen (name' :: path₀)
      have hrest' : inside.foldlM pathBehind (name' :: path₀) = some whole := by
        simpa [List.foldlM_cons, pathBehind] using hrest
      rw [List.nil_append, hrest'] at hinside
      cases hinside
      have hfirst : first = name := by
        by_contra hne
        simp [pathBehind, hne] at hlast
      exact ⟨inner, by simp [pathBehind, hfirst]⟩

/-- Every claimed name has its opening. -/
lemma exists_handsOut (hattaches : Attaches root) (hpath : events.foldlM pathBehind [] = some path)
    (hrun : run limit events (start root) = .ok () d) (hne : names ≠ [])
    (hnames : names <+: d.claimed.reverse) :
    ∃ inside c, HandsOut limit root events names inside c := by
  induction events using List.reverseRecOn generalizing path d with
  | nil =>
    cases hrun
    exact absurd (List.prefix_nil.1 hnames) hne
  | append_singleton events event ih =>
    obtain ⟨path', hpath', -⟩ := exists_path_of_concat hpath
    obtain ⟨mid, hmid, hstep⟩ := exists_of_run_append hrun
    rw [run_singleton] at hstep
    have hattached : Attached root mid := attached_run hattaches hmid
    cases event with
    | opening name attributes =>
      obtain ⟨r, isClaimed, r', hr, hocc, hclaim, hclaimed⟩ := hattached.of_opening hstep
      have hmore : names <+: mid.claimed.reverse →
          ∃ inside c,
            HandsOut limit root (events ++ [.opening name attributes]) names inside c := by
        intro hnames'
        obtain ⟨inside, c, hout⟩ := ih hpath' hmid hnames'
        obtain ⟨path'', hopen⟩ := hout.exists_path
        have hopening : (inside ++ [Event.opening name attributes]).foldlM pathBehind []
            = some (name :: path'') := by
          rw [List.foldlM_append, hopen]
          rfl
        exact ⟨_, c, hout.concat hopening⟩
      rw [hclaimed] at hnames
      cases isClaimed with
      | false => exact hmore hnames
      | true =>
        rw [if_pos rfl, List.reverse_cons, List.prefix_concat_iff] at hnames
        rcases hnames with rfl | hnames
        · obtain ⟨c, hkeep⟩ := hattaches hocc hclaim
          exact ⟨[], c, .intro hmid hr hclaim hkeep.child? rfl⟩
        · exact hmore hnames
    | closing name text =>
      have hnames' : names <+: mid.claimed.reverse :=
        hnames.trans (hattached.prefix_of_closing hstep)
      obtain ⟨inside, c, hout⟩ := ih hpath' hmid hnames'
      obtain ⟨path'', hopen⟩ := hout.exists_path_of_closing hattaches hmid hpath hstep hnames
      exact ⟨_, c, hout.concat hopen⟩

/-- Where children are attached the claimed names always lead to them. -/
theorem leads_of_run (hattaches : Attaches root) (hpath : events.foldlM pathBehind [] = some path)
    (hrun : run limit events (start root) = .ok () d) : Leads limit root events d := by
  constructor
  · obtain ⟨put, r, hchain, hroot⟩ := (attached_run hattaches hrun).chain
    rw [hroot]
    exact ⟨r, Focus.follow_eq hchain.focus⟩
  · exact exists_handsOut hattaches hpath hrun
  · intro names inside c hout
    obtain ⟨put, d₁, hasChildren, outside, hrun₁, hfocus, -, rfl⟩ :=
      hout.exists_inside hattaches hrun
    refine ⟨?_, d₁.root, ?_, hfocus.follow_eq⟩
    · rw [List.reverse_append, List.reverse_reverse]
      exact List.prefix_append _ _
    · rw [dispatch_eq_run, hrun₁]

end Dispatch

/-! ### Documents -/

variable {settings : Settings} {bytes : List UInt8} {limit : Option Nat} {events : List Event}
  {root root' : σ} {e : Error} {path : List String}

/-- A dispatch that fails never misses a receiver. -/
lemma dispatch_ne_detachedChild (hspares : Spares σ) (hattaches : Attaches root) {name : String} :
    dispatch limit events root ≠ .error (.detachedChild name) root' := by
  intro h
  obtain ⟨before, event, after, d, d', -, hbefore, hstep, -⟩ := exists_of_dispatch_eq_error h
  exact (Dispatch.attached_run hattaches hbefore).ne_detachedChild hspares hstep name rfl

/-- A decoding that fails never misses a receiver. -/
theorem decode_ne_detachedChild (hspares : Spares σ) (hattaches : Attaches root) {name : String} :
    decode settings bytes root ≠ .error (.detachedChild name) root' := by
  intro h
  cases hdocument : Event.ofDocument settings.trim bytes with
  | error fault =>
    simp only [decode, hdocument] at h
    cases h
  | ok events =>
    simp only [decode, hdocument] at h
    exact dispatch_ne_detachedChild hspares hattaches h

/-- Without a limit a dispatch of events that fit each other can only fail at a text. -/
theorem unexpectedValue_of_dispatch (hspares : Spares σ) (hattaches : Attaches root)
    (hpath : events.foldlM pathBehind [] = some path)
    (h : dispatch none events root = .error e root') :
    ∃ field text domain, e = .unexpectedValue field text domain := by
  obtain ⟨before, event, after, d, d', rfl, hbefore, hstep, -⟩ := exists_of_dispatch_eq_error h
  obtain ⟨-, hrefuses⟩ := Dispatch.step_eq_error hspares hstep
  cases hrefuses with
  | tooDeep n name attributes hlimit => cases hlimit
  | leaf name text domain frames hframes => exact ⟨name, text, domain, rfl⟩
  | unbalanced name text hframes =>
    -- the element is open, so there is a frame for it
    rw [List.foldlM_append] at hpath
    obtain ⟨path', hpath', hrest⟩ := Option.bind_eq_some_iff.1 hpath
    have hlength := (Dispatch.tracks_run hpath' hbefore).length_frames
    obtain rfl : path' = [] := by simpa [hframes] using hlength.symm
    simp [pathBehind] at hrest
  | detached _ name => exact absurd h (dispatch_ne_detachedChild hspares hattaches)

/-- Decoding a document, whether it succeeds or fails, makes the root evolve. -/
theorem evolves_decode (hspares : Spares σ) (hattaches : Attaches root) (settings : Settings)
    (bytes : List UInt8) : Evolves root (leave (decode settings bytes) root) := by
  cases hdocument : Event.ofDocument settings.trim bytes with
  | error fault =>
    have hdecode : decode settings bytes root = .error (.malformed fault) root := by
      simp only [decode, hdocument]
      rfl
    rw [leave_of_eq_error hdecode]
    exact .refl root
  | ok events =>
    have hdecode : decode settings bytes root = dispatch settings.maxDepth events root := by
      simp only [decode, hdocument]
    rw [leave, hdecode, dispatch_eq_run]
    cases hrun : Dispatch.run settings.maxDepth events (Dispatch.start root) with
    | ok _ d => exact (Dispatch.attached_run hattaches hrun).evolves_root
    | error e d =>
      obtain ⟨before, event, after, mid, -, hbefore, hstep⟩ :=
        Dispatch.exists_of_run_eq_error hrun
      have hroot : d.root = mid.root := (Dispatch.step_eq_error hspares hstep).1
      simp only [hroot]
      exact (Dispatch.attached_run hattaches hbefore).evolves_root

end CloudCodec.Decode
