/-
# Where a decoding stops

A decoding that fails has taken in some of the events of its document and refuses the next one.
The refused event leaves the root as it is, provided that no receiver is changed by a leaf that it
cannot take in and that a child put back unchanged changes nothing (`Spares`).  Of the reasons to
refuse an event, one cannot come up: the frames of a dispatch are as many as the elements that are
open (`Tracks`), so an element of a document never closes without a frame.
-/
import CloudCodec.Proofs.Decode.Step
import CloudCodec.Proofs.Xml.Nesting

namespace CloudCodec.Decode

open Xml

variable {σ α : Type} [Receiver σ]

/-! ### Receivers that failures spare -/

/-- A leaf that cannot be taken in changes nothing and is told by its name and text, and a child
that is put back as it was changes nothing. -/
structure Spares (σ : Type) [Receiver σ] : Prop where
  takeLeaf_eq_error : ∀ {r r' : σ} {name text : String} {e : Error},
    Receiver.takeLeaf name text r = .error e r' →
      r' = r ∧ ∃ domain, e = .unexpectedValue name text domain
  withChild_self : ∀ {r c : σ} {name : String},
    Receiver.child? r name = some c → Receiver.withChild r name c = r

/-- An act whose failures change nothing leaves the root as it is when it fails further in. -/
lemma reaching_eq_error (hspares : Spares σ) {names : List String} {act : EStateM Error σ α}
    {r r' : σ} {e : Error} (hact : ∀ {s s' e}, act s = .error e s' → s' = s)
    (h : reaching names act r = .error e r') :
    r' = r ∧ ((∃ s, act s = .error e s) ∨ ∃ name, e = .detachedChild name) := by
  induction names generalizing r r' with
  | nil =>
    rw [reaching_nil] at h
    obtain rfl := hact h
    exact ⟨rfl, Or.inl ⟨r', h⟩⟩
  | cons name names ih =>
    cases hchild : Receiver.child? r name with
    | none =>
      rw [reaching_cons_of_none hchild] at h
      cases h
      exact ⟨rfl, Or.inr ⟨name, rfl⟩⟩
    | some c =>
      rw [reaching_cons_of_some hchild] at h
      cases hin : reaching names act c with
      | ok a c' =>
        rw [hin] at h
        cases h
      | error e' c' =>
        rw [hin] at h
        cases h
        obtain ⟨rfl, hreason⟩ := ih hin
        exact ⟨hspares.withChild_self hchild, hreason⟩

namespace Dispatch

variable {limit : Option Nat} {events before after : List Event} {event : Event}
  {d d' : Dispatch σ} {root root' : σ} {e : Error} {name text : String} {attributes : Attributes}
  {path : List String}

/-! ### Refused events -/

/-- Why a dispatch refuses an event. -/
inductive Refuses (limit : Option Nat) (d : Dispatch σ) : Event → Error → Prop
  /-- An element opens too deep. -/
  | tooDeep (n : Nat) (name : String) (attributes : Attributes) (h : limit = some n) :
      Refuses limit d (.opening name attributes) (.depthExceeded n)
  /-- The text of a leaf lies outside the domain of its field. -/
  | leaf (name text : String) (domain : Domain) (frames : List Frame)
      (h : d.frames = ⟨false, false⟩ :: frames) :
      Refuses limit d (.closing name text) (.unexpectedValue name text domain)
  /-- An element closes and none is open. -/
  | unbalanced (name text : String) (h : d.frames = []) :
      Refuses limit d (.closing name text) (.malformed (.unbalancedClose name))
  /-- The innermost receiver is not found. -/
  | detached (event : Event) (name : String) : Refuses limit d event (.detachedChild name)

/-- A refused event leaves the root as it is. -/
theorem step_eq_error (hspares : Spares σ) (h : step limit event d = .error e d') :
    d'.root = d.root ∧ Refuses limit d event e := by
  obtain ⟨root, frames, claimed⟩ := d
  cases event with
  | opening name attributes =>
    rcases reaches_or_below limit frames.length with ⟨n, rfl, hn⟩ | hlimit
    · rw [step_opening_of_le hn] at h
      cases h
      exact ⟨rfl, .tooDeep n name attributes rfl⟩
    · rw [step_opening hlimit] at h
      cases hoffer : reaching claimed.reverse (offerOpening name attributes) root with
      | ok isClaimed root' =>
        rw [hoffer] at h
        cases h
      | error e' root' =>
        rw [hoffer] at h
        cases h
        obtain ⟨rfl, ⟨s, hs⟩ | ⟨n, rfl⟩⟩ := reaching_eq_error hspares (by
          intro s s' e hs
          simp [offerOpening] at hs) hoffer
        · simp [offerOpening] at hs
        · exact ⟨rfl, .detached _ n⟩
  | closing name text =>
    rcases frames with _ | ⟨⟨isClaimed, hasChildren⟩, frames⟩
    · rw [step_closing_of_nil] at h
      cases h
      exact ⟨rfl, .unbalanced name text rfl⟩
    · cases isClaimed with
      | true =>
        rw [step_closing_of_claimed] at h
        cases h
      | false =>
        cases hasChildren with
        | true =>
          rw [step_closing_of_hasChildren] at h
          cases h
        | false =>
          rw [step_closing_leaf] at h
          cases htake : reaching claimed.reverse (Receiver.takeLeaf name text) root with
          | ok _ root' =>
            rw [htake] at h
            cases h
          | error e' root' =>
            rw [htake] at h
            cases h
            obtain ⟨rfl, ⟨s, hs⟩ | ⟨n, rfl⟩⟩ := reaching_eq_error hspares
              (fun hs => (hspares.takeLeaf_eq_error hs).1) htake
            · obtain ⟨-, domain, rfl⟩ := hspares.takeLeaf_eq_error hs
              exact ⟨rfl, .leaf name text domain frames rfl⟩
            · exact ⟨rfl, .detached _ n⟩

/-! ### Frames and open elements -/

/-- An opening opens a frame without children inside the innermost one. -/
lemma frames_of_opening (h : step limit (.opening name attributes) d = .ok () d') :
    ∃ isClaimed, d'.frames = ⟨isClaimed, false⟩ :: markParent d.frames := by
  obtain ⟨root, frames, claimed⟩ := d
  rcases reaches_or_below limit frames.length with ⟨n, rfl, hn⟩ | hlimit
  · rw [step_opening_of_le hn] at h
    cases h
  · rw [step_opening hlimit] at h
    cases hoffer : reaching claimed.reverse (offerOpening name attributes) root with
    | ok isClaimed root' =>
      rw [hoffer] at h
      cases h
      exact ⟨isClaimed, rfl⟩
    | error e' root' =>
      rw [hoffer] at h
      cases h

/-- A closing closes the innermost frame. -/
lemma frames_of_closing (h : step limit (.closing name text) d = .ok () d') :
    ∃ frame, d.frames = frame :: d'.frames := by
  obtain ⟨root, frames, claimed⟩ := d
  rcases frames with _ | ⟨⟨isClaimed, hasChildren⟩, frames⟩
  · rw [step_closing_of_nil] at h
    cases h
  · refine ⟨⟨isClaimed, hasChildren⟩, ?_⟩
    cases isClaimed with
    | true =>
      rw [step_closing_of_claimed] at h
      cases h
      rfl
    | false =>
      cases hasChildren with
      | true =>
        rw [step_closing_of_hasChildren] at h
        cases h
        rfl
      | false =>
        rw [step_closing_leaf] at h
        cases htake : reaching claimed.reverse (Receiver.takeLeaf name text) root <;>
          rw [htake] at h <;> cases h
        rfl

/-- The frames of a dispatch behind some events, between which the elements of `path` are open:
there is one for each of them, and only the innermost one may lack children, namely behind its
own opening. -/
structure Tracks (events : List Event) (path : List String) (d : Dispatch σ) : Prop where
  length_frames : d.frames.length = path.length
  hasChildren_of_mem_tail : ∀ frame ∈ d.frames.tail, frame.hasChildren = true
  exists_opening : ∀ {frame frames}, d.frames = frame :: frames → frame.hasChildren = false →
    ∃ before name attributes, events = before ++ [.opening name attributes]

lemma hasChildren_of_mem_markParent {frames : List Frame}
    (h : ∀ frame ∈ frames.tail, frame.hasChildren = true) :
    ∀ frame ∈ markParent frames, frame.hasChildren = true := by
  cases frames with
  | nil => simp [markParent]
  | cons frame frames => simpa [markParent] using h

omit [Receiver σ] in
lemma length_markParent (frames : List Frame) : (markParent frames).length = frames.length := by
  cases frames <;> rfl

/-- One more event that fits the open elements. -/
theorem Tracks.step {path' : List String} (h : Tracks events path d)
    (hpath : pathBehind path event = some path') (hstep : step limit event d = .ok () d') :
    Tracks (events ++ [event]) path' d' := by
  cases event with
  | opening name attributes =>
    obtain ⟨isClaimed, hframes⟩ := frames_of_opening hstep
    cases hpath
    constructor
    · simp [hframes, length_markParent, h.length_frames]
    · rw [hframes]
      exact hasChildren_of_mem_markParent h.hasChildren_of_mem_tail
    · intro _ _ _ _
      exact ⟨events, name, attributes, rfl⟩
  | closing name text =>
    obtain ⟨frame, hframes⟩ := frames_of_closing hstep
    rw [pathBehind] at hpath
    split_ifs at hpath with hhead
    obtain ⟨path, rfl⟩ := List.head?_eq_some_iff.1 hhead
    cases hpath
    have hmem := h.hasChildren_of_mem_tail
    rw [hframes] at hmem
    constructor
    · simpa [hframes] using h.length_frames
    · exact fun frame' hframe' => hmem frame' (List.mem_of_mem_tail hframe')
    · intro frame' frames hframes' hno
      rw [hmem frame' (by simp [hframes'])] at hno
      cases hno

/-- Events that fit each other. -/
theorem tracks_run (hpath : events.foldlM pathBehind [] = some path)
    (hrun : run limit events (start root) = .ok () d) : Tracks events path d := by
  induction events using List.reverseRecOn generalizing path d with
  | nil =>
    cases hpath
    cases hrun
    exact ⟨rfl, by simp [start], by simp [start]⟩
  | append_singleton events event ih =>
    obtain ⟨path', hpath', hlast⟩ := exists_path_of_concat hpath
    obtain ⟨mid, hmid, hstep⟩ := exists_of_run_append hrun
    rw [run_singleton] at hstep
    exact (ih hpath' hmid).step hlast hstep

end Dispatch

/-! ### Failed decodings -/

/-- Decoding the document into `root` takes in the events `before`, which leaves `root'`, and
refuses the next one, which leaves `root'` too. -/
structure StopsAt (settings : Settings) (bytes : List UInt8) (root root' : σ) (before : List Event)
    (event : Event) (e : Error) : Prop where
  ofDocument : ∃ after, Event.ofDocument settings.trim bytes = .ok (before ++ event :: after)
  dispatch_before : dispatch settings.maxDepth before root = .ok () root'
  dispatch_event : dispatch settings.maxDepth (before ++ [event]) root = .error e root'

variable {settings : Settings} {bytes : List UInt8} {root root' : σ} {e : Error}

/-- A document that is decoded and fails stops at some event, which the dispatch refuses. -/
theorem exists_stopsAt (hspares : Spares σ) {element : Element}
    (hdocument : Event.ofDocument settings.trim bytes = .ok element.events)
    (h : dispatch settings.maxDepth element.events root = .error e root') :
    ∃ before event after, element.events = before ++ event :: after ∧
      StopsAt settings bytes root root' before event e ∧
      ∃ path, ∃ d : Dispatch σ, before.foldlM pathBehind [] = some path ∧
        Dispatch.Tracks before path d ∧ Dispatch.Refuses settings.maxDepth d event e := by
  obtain ⟨before, event, after, d, d', hevents, hbefore, hstep, rfl⟩ :=
    exists_of_dispatch_eq_error h
  obtain ⟨hroot, hrefuses⟩ := Dispatch.step_eq_error hspares hstep
  obtain ⟨path, hpath, -⟩ := exists_path hevents
  refine ⟨before, event, after, hevents, ⟨⟨after, hevents ▸ hdocument⟩, ?_, ?_⟩, path, d, hpath,
    Dispatch.tracks_run hpath hbefore, hrefuses⟩
  · rw [dispatch_eq_run, hbefore, hroot]
  · rw [dispatch_eq_run, Dispatch.run_append, hbefore]
    simp only [Dispatch.run_singleton, hstep]

/-- What a failed decoding leaves behind.  If the document is malformed, the root is as it was.  If
a text is unexpected, the document was decoded up to the opening of the leaf with that name and
text.  If elements nest too deep, it was decoded up to the element that is too deep. -/
structure LeavesBehind (settings : Settings) (bytes : List UInt8) (root : σ) : Prop where
  malformed : ∀ {fault root'}, decode settings bytes root = .error (.malformed fault) root' →
    root' = root ∧ Event.ofDocument settings.trim bytes = .error fault
  unexpectedValue : ∀ {field text domain root'},
    decode settings bytes root = .error (.unexpectedValue field text domain) root' →
    ∃ before attributes, StopsAt settings bytes root root'
      (before ++ [.opening field attributes]) (.closing field text)
      (.unexpectedValue field text domain)
  depthExceeded : ∀ {n root'},
    decode settings bytes root = .error (.depthExceeded n) root' →
    settings.maxDepth = some n ∧ ∃ before name attributes, StopsAt settings bytes root root'
      before (.opening name attributes) (.depthExceeded n)

/-- Receivers that failures spare are left behind as they should be. -/
theorem leavesBehind (hspares : Spares σ) (settings : Settings) (bytes : List UInt8) (root : σ) :
    LeavesBehind settings bytes root := by
  cases hdocument : Event.ofDocument settings.trim bytes with
  | error fault =>
    have hdecode : decode settings bytes root = .error (.malformed fault) root := by
      simp only [decode, hdocument]
      rfl
    constructor
    · intro fault' root' h
      cases hdecode.symm.trans h
      exact ⟨rfl, hdocument⟩
    · intro field text domain root' h
      cases hdecode.symm.trans h
    · intro n root' h
      cases hdecode.symm.trans h
  | ok events =>
    obtain ⟨element, rfl⟩ := exists_eq_events hdocument
    have hdecode : decode settings bytes root
        = dispatch settings.maxDepth element.events root := by
      simp only [decode, hdocument]
    constructor
    · intro fault root' h
      rw [hdecode] at h
      obtain ⟨before, event, after, hevents, -, path, d, hpath, htracks, hrefuses⟩ :=
        exists_stopsAt hspares hdocument h
      -- an element that closes is open, and so has a frame
      cases hrefuses with
      | unbalanced name text hframes =>
        obtain ⟨path', hpath'⟩ := exists_path_of_closing hevents
        cases hpath.symm.trans hpath'
        have hlength := htracks.length_frames
        simp [hframes] at hlength
    · intro field text domain root' h
      rw [hdecode] at h
      obtain ⟨before, event, after, hevents, hstops, path, d, hpath, htracks, hrefuses⟩ :=
        exists_stopsAt hspares hdocument h
      cases hrefuses with
      | leaf _ _ _ frames hframes =>
        obtain ⟨before, name, attributes, rfl⟩ := htracks.exists_opening hframes rfl
        obtain rfl : name = field := eq_of_opening_closing (by simpa using hevents)
        exact ⟨before, attributes, hstops⟩
    · intro n root' h
      rw [hdecode] at h
      obtain ⟨before, event, after, -, hstops, path, d, -, -, hrefuses⟩ :=
        exists_stopsAt hspares hdocument h
      cases hrefuses with
      | tooDeep _ name attributes hlimit => exact ⟨hlimit, before, name, attributes, hstops⟩

end CloudCodec.Decode
