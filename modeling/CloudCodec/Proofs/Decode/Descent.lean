/-
# Reading an element by descent

A dispatch takes in the boundaries of elements one by one: it keeps a frame for every open element
and finds the innermost receiver anew for every event.  An element can also be read by recursion
on its tree.  A receiver is offered the opening; if it claims the element, the child elements are
read by its child, and else by the receiver itself, which is offered a leaf in the end if there
were no child elements.

The two agree for every receiver that hands the child of a claimed element back until the element
closes, or never hands it back (`dispatch_eq_readElement`).  The link is a focus (`Focus`): however
deep the dispatch is nested, its root is a surrounding `put` applied to the receiver that the
recursion works on.
-/
import CloudCodec.Decode.Recorder
import CloudCodec.Proofs.Decode.Step
import CloudCodec.Xml.Element

namespace CloudCodec.Decode

open Xml

variable {σ α : Type} [Receiver σ]

/-! ### The reader -/

mutual

/-- Reads an element.  The child elements of a claimed element are read by the child that claimed
it, which is put back then, and its closing is offered to nobody; the child elements of another one
are read by the receiver itself, and if there are none, the receiver takes in a leaf. -/
def readElement : Element → EStateM Error σ Unit
  | ⟨name, attributes, children, text⟩ => fun receiver =>
    let (isClaimed, receiver) := Receiver.claim receiver name attributes
    if isClaimed then
      if children.isEmpty then .ok () receiver
      else
        match Receiver.child? receiver name with
        | none => .error (.detachedChild name) receiver
        | some child =>
          match readAll children child with
          | .ok _ child => .ok () (Receiver.withChild receiver name child)
          | .error e child => .error e (Receiver.withChild receiver name child)
    else if children.isEmpty then Receiver.takeLeaf name text receiver
    else readAll children receiver

/-- Reads elements one after the other, up to the first failure. -/
def readAll : List Element → EStateM Error σ Unit
  | [] => pure ()
  | e :: rest => do
    readElement e
    readAll rest

end

section Reader

variable {receiver receiver' child : σ} {name text : String} {attributes : Attributes}
  {children : List Element}

lemma readElement_of_claimed_nil
    (h : Receiver.claim receiver name attributes = (true, receiver')) :
    readElement ⟨name, attributes, [], text⟩ receiver = .ok () receiver' := by
  simp [readElement, h]

/-- The child of a claimed element reads what is inside and is put back. -/
lemma readElement_of_claimed
    (h : Receiver.claim receiver name attributes = (true, receiver')) (hc : children ≠ [])
    (hchild : Receiver.child? receiver' name = some child) :
    readElement ⟨name, attributes, children, text⟩ receiver
      = putInto (Receiver.withChild receiver' name) (readAll children child) := by
  simp only [readElement, h, List.isEmpty_eq_false_iff.2 hc, hchild, if_true]
  cases readAll children child <;> rfl

/-- A child that is not handed out is missed as soon as there is something to read. -/
lemma readElement_of_detached
    (h : Receiver.claim receiver name attributes = (true, receiver')) (hc : children ≠ [])
    (hchild : Receiver.child? receiver' name = none) :
    readElement ⟨name, attributes, children, text⟩ receiver
      = .error (.detachedChild name) receiver' := by
  simp [readElement, h, hc, hchild]

lemma readElement_leaf (h : Receiver.claim receiver name attributes = (false, receiver')) :
    readElement ⟨name, attributes, [], text⟩ receiver
      = Receiver.takeLeaf name text receiver' := by
  simp [readElement, h]

lemma readElement_of_unclaimed
    (h : Receiver.claim receiver name attributes = (false, receiver')) (hc : children ≠ []) :
    readElement ⟨name, attributes, children, text⟩ receiver = readAll children receiver' := by
  simp [readElement, h, hc]

lemma readAll_nil : readAll [] receiver = .ok () receiver := rfl

lemma readAll_cons (e : Element) (rest : List Element) :
    readAll (e :: rest) receiver
      = match readElement e receiver with
        | .ok _ receiver => readAll rest receiver
        | .error error receiver => .error error receiver := by
  simp only [readAll, bind, EStateM.bind]
  cases readElement e receiver <;> rfl

lemma readAll_singleton (e : Element) : readAll [e] receiver = readElement e receiver := by
  rw [readAll_cons]
  cases readElement e receiver <;> rfl

lemma readAll_append (a b : List Element) :
    readAll (a ++ b) receiver
      = match readAll a receiver with
        | .ok _ receiver => readAll b receiver
        | .error error receiver => .error error receiver := by
  induction a generalizing receiver with
  | nil => rfl
  | cons e rest ih =>
    rw [List.cons_append, readAll_cons, readAll_cons]
    cases readElement e receiver with
    | ok _ receiver => exact ih
    | error error receiver => rfl

/-- Elements that are read with one more behind them are read first. -/
lemma exists_of_readAll_concat {es : List Element} {e : Element}
    (h : readAll (es ++ [e]) receiver = .ok () receiver') :
    ∃ mid, readAll es receiver = .ok () mid ∧ readElement e mid = .ok () receiver' := by
  rw [readAll_append] at h
  cases hread : readAll es receiver with
  | ok _ mid =>
    rw [hread] at h
    simp only [readAll_singleton] at h
    exact ⟨mid, rfl, h⟩
  | error error mid =>
    rw [hread] at h
    cases h

end Reader

/-! ### Receivers that hand their children back -/

/-- The state that an act leaves behind, whether it succeeds or fails. -/
def leave (act : EStateM Error σ α) (s : σ) : σ :=
  match act s with
  | .ok _ s => s
  | .error _ s => s

omit [Receiver σ] in
lemma leave_of_eq_ok {act : EStateM Error σ α} {s s' : σ} {a : α} (h : act s = .ok a s') :
    leave act s = s' := by
  rw [leave, h]

omit [Receiver σ] in
lemma leave_of_eq_error {act : EStateM Error σ α} {s s' : σ} {e : Error}
    (h : act s = .error e s') : leave act s = s' := by
  rw [leave, h]

/-- What becomes of a receiver while elements are offered to it and to its children: it is offered
an opening or a leaf, or the child of an element that it claims is replaced by what becomes of
that child. -/
inductive Evolves : σ → σ → Prop
  | refl (r : σ) : Evolves r r
  | opening {r s : σ} (name : String) (attributes : Attributes) :
      Evolves r s → Evolves r (Receiver.claim s name attributes).2
  | leaf {r s : σ} (name text : String) :
      Evolves r s → Evolves r (leave (Receiver.takeLeaf name text) s)
  | inside {r s s' c c' : σ} {name : String} {attributes : Attributes} :
      Evolves r s → Receiver.claim s name attributes = (true, s') →
      Receiver.child? s' name = some c → Evolves c c' →
      Evolves r (Receiver.withChild s' name c')

lemma Evolves.trans {r s t : σ} (h : Evolves r s) (h' : Evolves s t) : Evolves r t := by
  induction h' with
  | refl => exact h
  | opening name attributes _ ih => exact .opening name attributes (ih h)
  | leaf name text _ ih => exact .leaf name text (ih h)
  | inside _ hclaim hchild hc ih _ => exact .inside (ih h) hclaim hchild hc

/-- The receivers that are met while a document is decoded into `root`: the root and, at every
level of nesting, the children of claimed elements. -/
inductive Occurs (root : σ) : σ → Prop
  | root {r : σ} : Evolves root r → Occurs root r
  | child {r r' c c' : σ} {name : String} {attributes : Attributes} :
      Occurs root r → Receiver.claim r name attributes = (true, r') →
      Receiver.child? r' name = some c → Evolves c c' → Occurs root c'

lemma Occurs.evolves {root r s : σ} (h : Occurs root r) (h' : Evolves r s) : Occurs root s := by
  cases h with
  | root hr => exact .root (hr.trans h')
  | child hr hclaim hchild hc => exact .child hr hclaim hchild (hc.trans h')

/-- Under `name` the receiver `r` keeps the child `c`: it hands that child back whatever becomes of
it, and putting a child back replaces the one before. -/
structure KeepsChild (r : σ) (name : String) (c : σ) : Prop where
  child? : Receiver.child? r name = some c
  withChild_self : Receiver.withChild r name c = r
  child?_withChild : ∀ {c'}, Evolves c c' →
    Receiver.child? (Receiver.withChild r name c') name = some c'
  withChild_withChild : ∀ {c'} (c'' : σ), Evolves c c' →
    Receiver.withChild (Receiver.withChild r name c') name c'' = Receiver.withChild r name c''

/-- Whenever a receiver claims an element, at any level of nesting, it either keeps the child of
that element or hands nothing back. -/
def HandsBack (root : σ) : Prop :=
  ∀ {r r' : σ} {name : String} {attributes : Attributes}, Occurs root r →
    Receiver.claim r name attributes = (true, r') →
    Receiver.child? r' name = none ∨ ∃ c, KeepsChild r' name c

/-- It is enough that every child is kept, whether an element claimed it or not. -/
lemma handsBack_of_keepsChild
    (h : ∀ {r : σ} {name : String} {c : σ}, Receiver.child? r name = some c → KeepsChild r name c)
    (root : σ) : HandsBack root := by
  intro r r' name attributes _ _
  cases hchild : Receiver.child? r' name with
  | none => exact Or.inl rfl
  | some c => exact Or.inr ⟨c, h hchild⟩

mutual

/-- Reading an element makes a receiver evolve. -/
theorem evolves_readElement (e : Element) (r : σ) : Evolves r (leave (readElement e) r) := by
  rcases e with ⟨name, attributes, children, text⟩
  rcases hclaim : Receiver.claim r name attributes with ⟨isClaimed, r'⟩
  have hr : Evolves r r' := by
    simpa [hclaim] using Evolves.opening name attributes (.refl r)
  by_cases hc : children = []
  · subst hc
    cases isClaimed with
    | true => rwa [leave_of_eq_ok (readElement_of_claimed_nil hclaim)]
    | false =>
      rw [leave, readElement_leaf hclaim]
      exact .leaf name text hr
  · cases isClaimed with
    | true =>
      rw [leave]
      cases hchild : Receiver.child? r' name with
      | none => rwa [readElement_of_detached hclaim hc hchild]
      | some c =>
        rw [readElement_of_claimed hclaim hc hchild]
        have hin := Evolves.inside (.refl r) hclaim hchild (evolves_readAll children c)
        rw [leave] at hin
        cases hread : readAll children c <;> simpa [hread] using hin
    | false =>
      rw [leave, readElement_of_unclaimed hclaim hc]
      exact hr.trans (evolves_readAll children r')

/-- Reading elements makes a receiver evolve. -/
theorem evolves_readAll (es : List Element) (r : σ) : Evolves r (leave (readAll es) r) := by
  cases es with
  | nil => exact .refl r
  | cons e rest =>
    have he := evolves_readElement e r
    rw [leave, readAll_cons]
    cases hread : readElement e r with
    | ok _ r' =>
      rw [leave_of_eq_ok hread] at he
      exact he.trans (evolves_readAll rest r')
    | error error r' => rwa [leave_of_eq_error hread] at he

end

/-! ### The receiver in focus -/

/-- The receiver `c` is in focus: along `names`, every act on `put c` is that act on `c`, and so it
stays whatever becomes of `c`. -/
def Focus (names : List String) (put : σ → σ) (c : σ) : Prop :=
  ∀ {c' : σ}, Evolves c c' → ∀ {α : Type} (act : EStateM Error σ α),
    reaching names act (put c') = putInto put (act c')

lemma focus_root (root : σ) : Focus [] id root := by
  intro c' _ α act
  rw [putInto_id]
  rfl

lemma Focus.evolves {names : List String} {put : σ → σ} {c c' : σ} (h : Focus names put c)
    (h' : Evolves c c') : Focus names put c' :=
  fun h'' _ act => h (h'.trans h'') act

/-- The focus moves to the child of a claimed element. -/
lemma Focus.child {names : List String} {put : σ → σ} {r r' c : σ} {name : String}
    {attributes : Attributes} (h : Focus names put r)
    (hclaim : Receiver.claim r name attributes = (true, r')) (hkeep : KeepsChild r' name c) :
    Focus (names ++ [name]) (fun c => put (Receiver.withChild r' name c)) c := by
  intro c' hc' α act
  have hin := Evolves.inside (.refl r) hclaim hkeep.child? hc'
  rw [reaching_append, h hin, reaching_cons_of_some (hkeep.child?_withChild hc'), reaching_nil,
    putInto_putInto]
  congr 1
  funext c''
  rw [hkeep.withChild_withChild c'' hc']

/-! ### The simulation -/

/-- The dispatch of the events of some elements shows the outcome of reading them: it fails with
the same error, or ends with the same open elements as before, and in both cases its root is the
receiver in focus put back. -/
inductive Shows (put : σ → σ) (frames : List Frame) (claimed : List String) :
    EStateM.Result Error (Dispatch σ) Unit → EStateM.Result Error σ Unit → Prop
  | ok (c : σ) : Shows put frames claimed (.ok () ⟨put c, frames, claimed⟩) (.ok () c)
  | error (e : Error) (d : Dispatch σ) {c : σ} (hroot : d.root = put c) :
      Shows put frames claimed (.error e d) (.error e c)

/-- The open elements after some elements opened and closed inside the innermost of them. -/
def framesAfter (es : List Element) (frames : List Frame) : List Frame :=
  if es.isEmpty then frames else Dispatch.markParent frames

lemma framesAfter_of_ne_nil {es : List Element} (h : es ≠ []) (frames : List Frame) :
    framesAfter es frames = Dispatch.markParent frames := by
  simp [framesAfter, h]

lemma framesAfter_markParent (es : List Element) (frames : List Frame) :
    framesAfter es (Dispatch.markParent frames) = Dispatch.markParent frames := by
  cases frames <;> simp [framesAfter, Dispatch.markParent]

mutual

/-- The dispatch of the events of an element shows the outcome of reading it. -/
theorem shows_readElement {root : σ} (h : HandsBack root) (e : Element) {c : σ} {put : σ → σ}
    {claimed : List String} (frames : List Frame) (hocc : Occurs root c)
    (hfocus : Focus claimed.reverse put c) :
    Shows put (Dispatch.markParent frames) claimed
      (Dispatch.run none e.events ⟨put c, frames, claimed⟩) (readElement e c) := by
  rcases e with ⟨name, attributes, children, text⟩
  rcases hclaim : Receiver.claim c name attributes with ⟨isClaimed, c'⟩
  have hoffer : offerOpening name attributes c = .ok isClaimed c' := by
    simp [offerOpening, hclaim]
  have hev : Evolves c c' := by
    simpa [hclaim] using Evolves.opening name attributes (.refl c)
  rw [Element.events, Dispatch.run_cons, Dispatch.step_opening (by simp), hfocus (.refl c), hoffer,
    putInto_ok]
  simp only [Dispatch.run_append]
  by_cases hc : children = []
  · subst hc
    simp only [Element.eventsOfAll, Dispatch.run_nil, Dispatch.run_cons]
    cases isClaimed with
    | true =>
      rw [readElement_of_claimed_nil hclaim]
      exact .ok c'
    | false =>
      rw [readElement_leaf hclaim]
      simp only [Bool.false_eq_true, if_false, Dispatch.step_closing_leaf, hfocus hev,
        putInto_putInto]
      cases Receiver.takeLeaf name text c' with
      | ok _ c'' => exact .ok c''
      | error e c'' => exact .error e _ rfl
  · cases isClaimed with
    | true =>
      simp only [if_true]
      rcases h hocc hclaim with hnone | ⟨k, hkeep⟩
      · -- the child cannot be handed back: the first child element is not even offered
        obtain ⟨first, rest, rfl⟩ := List.exists_cons_of_ne_nil hc
        rcases first with ⟨name', attributes', children', text'⟩
        rw [readElement_of_detached hclaim hc hnone, Element.eventsOfAll, Element.events,
          List.cons_append, Dispatch.run_cons, Dispatch.step_opening (by simp), List.reverse_cons,
          reaching_append, hfocus hev, reaching_cons_of_none hnone]
        exact .error _ _ rfl
      · have hin := shows_readAll h children (⟨true, false⟩ :: Dispatch.markParent frames)
          (Occurs.child hocc hclaim hkeep.child? (.refl k))
          (by rw [List.reverse_cons]; exact hfocus.child hclaim hkeep)
        rw [hkeep.withChild_self, framesAfter_of_ne_nil hc] at hin
        rw [readElement_of_claimed hclaim hc hkeep.child?]
        generalize readAll children k = outcome at hin ⊢
        generalize Dispatch.run none (Element.eventsOfAll children) (_ : Dispatch σ) = run at hin ⊢
        cases hin with
        | ok k' => exact .ok _
        | error e d hroot => exact .error e d hroot
    | false =>
      rw [readElement_of_unclaimed hclaim hc]
      simp only [Bool.false_eq_true, if_false]
      have hin := shows_readAll h children (⟨false, false⟩ :: Dispatch.markParent frames)
        (hocc.evolves hev) (hfocus.evolves hev)
      rw [framesAfter_of_ne_nil hc] at hin
      generalize readAll children c' = outcome at hin ⊢
      generalize Dispatch.run none (Element.eventsOfAll children) (_ : Dispatch σ) = run at hin ⊢
      cases hin with
      | ok c'' => exact .ok c''
      | error e d hroot => exact .error e d hroot

/-- The dispatch of the events of elements shows the outcome of reading them. -/
theorem shows_readAll {root : σ} (h : HandsBack root) (es : List Element) {c : σ} {put : σ → σ}
    {claimed : List String} (frames : List Frame) (hocc : Occurs root c)
    (hfocus : Focus claimed.reverse put c) :
    Shows put (framesAfter es frames) claimed
      (Dispatch.run none (Element.eventsOfAll es) ⟨put c, frames, claimed⟩)
      (readAll es c) := by
  cases es with
  | nil => exact .ok c
  | cons e rest =>
    have he := shows_readElement h e frames hocc hfocus
    have hev := evolves_readElement e c
    rw [Element.eventsOfAll, Dispatch.run_append, readAll_cons,
      framesAfter_of_ne_nil (List.cons_ne_nil e rest)]
    rw [leave] at hev
    generalize readElement e c = outcome at he hev ⊢
    generalize Dispatch.run none e.events (_ : Dispatch σ) = run at he ⊢
    cases he with
    | ok c' =>
      have hrest := shows_readAll h rest (Dispatch.markParent frames)
        (hocc.evolves hev) (hfocus.evolves hev)
      rwa [framesAfter_markParent] at hrest
    | error error d hroot => exact .error error d hroot

end

/-! ### Recorders hand their children back -/

namespace Recorder

lemma lookup_replaceFirst {name : String} {c c' : Recorder} :
    ∀ {children : List (String × Recorder)}, children.lookup name = some c →
      (replaceFirst name c' children).lookup name = some c' := by
  intro children
  induction children with
  | nil => simp
  | cons p rest ih =>
    obtain ⟨n, d⟩ := p
    intro h
    by_cases hn : n = name
    · simp [replaceFirst, hn]
    · have hne : (name == n) = false := by simpa using Ne.symm hn
      rw [List.lookup_cons, hne] at h
      simp only [replaceFirst, if_neg hn, List.lookup_cons, hne]
      exact ih h

lemma replaceFirst_self {name : String} {c : Recorder} :
    ∀ {children : List (String × Recorder)}, children.lookup name = some c →
      replaceFirst name c children = children := by
  intro children
  induction children with
  | nil => simp
  | cons p rest ih =>
    obtain ⟨n, d⟩ := p
    intro h
    by_cases hn : n = name
    · subst hn
      rw [List.lookup_cons, beq_self_eq_true] at h
      cases h
      simp [replaceFirst]
    · have hne : (name == n) = false := by simpa using Ne.symm hn
      rw [List.lookup_cons, hne] at h
      simp only [replaceFirst, if_neg hn, ih h]

lemma replaceFirst_replaceFirst (name : String) (c' c'' : Recorder)
    (children : List (String × Recorder)) :
    replaceFirst name c'' (replaceFirst name c' children) = replaceFirst name c'' children := by
  induction children with
  | nil => rfl
  | cons p rest ih =>
    obtain ⟨n, d⟩ := p
    by_cases hn : n = name <;> simp [replaceFirst, hn, ih]

lemma lookup_of_child? {r c : Recorder} {name : String}
    (h : Receiver.child? r name = some c) :
    r.rules.forgotten.contains name = false ∧ r.children.lookup name = some c := by
  simp only [Receiver.child?] at h
  split at h
  · simp at h
  · rename_i hforgotten
    exact ⟨Bool.not_eq_true _ ▸ hforgotten, h⟩

lemma keepsChild {r c : Recorder} {name : String} (h : Receiver.child? r name = some c) :
    KeepsChild r name c := by
  obtain ⟨hforgotten, hlookup⟩ := lookup_of_child? h
  refine ⟨h, ?_, ?_, ?_⟩
  · change { r with children := replaceFirst name c r.children } = r
    rw [replaceFirst_self hlookup]
    cases r
    rfl
  · intro c' _
    simp only [Receiver.child?, Receiver.withChild, hforgotten, Bool.false_eq_true, if_false]
    exact lookup_replaceFirst hlookup
  · intro c' c'' _
    simp [Receiver.withChild, replaceFirst_replaceFirst]

lemma handsBack (root : Recorder) : HandsBack root :=
  handsBack_of_keepsChild keepsChild root

/-- Claims nest, and the name of a claimed element repeats below an element that nobody claimed. -/
def sampleRules : Rules := ⟨["a", "lost"], ["lost"], []⟩

/-- A document whose last element finds no child. -/
def sampleElement : Element :=
  ⟨"a", ∅, [⟨"b", ∅, [⟨"a", ∅, [⟨"x", ∅, [], "1"⟩, ⟨"a", ∅, [], ""⟩], ""⟩], ""⟩, ⟨"y", ∅, [], "2"⟩,
    ⟨"lost", ∅, [], ""⟩, ⟨"lost", ∅, [⟨"z", ∅, [], "3"⟩], ""⟩], ""⟩

end Recorder

/-! ### The dispatch and the reader agree -/

/-- Where the root hands children back, the dispatch of the events of elements has the outcome of
reading the elements by descent, and leaves the same root. -/
theorem dispatch_eq_readAll (root : σ) (h : HandsBack root) (es : List Element) :
    dispatch none (Element.eventsOfAll es) root = readAll es root := by
  have hfocus : Focus ([] : List String).reverse id root := focus_root root
  have hshows := shows_readAll h es [] (.root (.refl root)) hfocus
  simp only [id_eq] at hshows
  rw [dispatch_eq_run, Dispatch.start]
  generalize readAll es root = outcome at hshows ⊢
  generalize Dispatch.run none (Element.eventsOfAll es) (_ : Dispatch σ) = run at hshows ⊢
  cases hshows with
  | ok c => rfl
  | error e d hroot => simp [hroot]

/-- Where the root hands children back, the dispatch of the events of an element has the outcome of
reading the element by descent, and leaves the same root. -/
theorem dispatch_eq_readElement (root : σ) (h : HandsBack root) (e : Element) :
    dispatch none e.events root = readElement e root := by
  rw [← readAll_singleton, ← dispatch_eq_readAll root h, Element.eventsOfAll, Element.eventsOfAll,
    List.append_nil]

theorem dispatch_eq_readElement_sample :
    HandsBack (Recorder.start Recorder.sampleRules) ∧
      dispatch none Recorder.sampleElement.events (Recorder.start Recorder.sampleRules)
        = readElement Recorder.sampleElement (Recorder.start Recorder.sampleRules) ∧
      ∃ r, readElement Recorder.sampleElement (Recorder.start Recorder.sampleRules)
        = .error (.detachedChild "lost") r :=
  ⟨Recorder.handsBack _, dispatch_eq_readElement _ (Recorder.handsBack _) _, _, by cbv⟩

end CloudCodec.Decode
