/-
# Receivers of element events

A document is decoded by handing its events to a receiver. When an element opens, the receiver
may claim it; everything inside then goes to a child of the receiver, and the closing of the
claimed element is offered to nobody. When an element closes that nobody claimed and that has no
child elements, it is a leaf, and its text is offered to the innermost receiver.

The dispatch keeps two lists: a frame for every open element, and the names of the claimed ones.
The innermost receiver is found from the root along the claimed names, so children stay where
their parents keep them, and a failed decoding leaves all that was decoded before in the root.
-/
import CloudCodec.Decode.Error
import CloudCodec.Decode.Settings
import CloudCodec.Xml.Event

namespace CloudCodec.Decode

/-- What can take in the events of elements. Receivers and their children are of one type. -/
class Receiver (σ : Type) where
  /-- Whether the receiver claims an element that opens, and the receiver from then on. -/
  claim : σ → String → Xml.Attributes → Bool × σ
  /-- The child that takes in the events inside a claimed element of this name. -/
  child? : σ → String → Option σ
  /-- The receiver with that child replaced. -/
  withChild : σ → String → σ → σ
  /-- Takes in the name and the text of a leaf. -/
  takeLeaf : String → String → EStateM Error σ Unit

/-- An act of the receiver that is reached along some names of claimed elements, outermost
first. -/
def reaching {σ α : Type} [Receiver σ] (names : List String) (act : EStateM Error σ α) :
    EStateM Error σ α :=
  match names with
  | [] => act
  | name :: names => fun receiver =>
    match Receiver.child? receiver name with
    | none => .error (.detachedChild name) receiver
    | some child =>
      match reaching names act child with
      | .ok a child => .ok a (Receiver.withChild receiver name child)
      | .error e child => .error e (Receiver.withChild receiver name child)

/-- An open element. -/
structure Frame where
  /-- Whether a receiver claimed it. -/
  isClaimed : Bool
  /-- Whether an element opened inside it. -/
  hasChildren : Bool
  deriving DecidableEq, Repr

/-- A document dispatched so far. -/
structure Dispatch (σ : Type) where
  /-- The receiver of the document. -/
  root : σ
  /-- The open elements, innermost first. -/
  frames : List Frame
  /-- The names of the claimed open elements, innermost first. -/
  claimed : List String

namespace Dispatch

variable {σ α : Type}

/-- The dispatch before the first event. -/
def start (root : σ) : Dispatch σ := ⟨root, [], []⟩

/-- An act of the root receiver. -/
def onRoot (act : EStateM Error σ α) : EStateM Error (Dispatch σ) α := fun d =>
  match act d.root with
  | .ok a root => .ok a { d with root }
  | .error e root => .error e { d with root }

variable [Receiver σ]

/-- An act of the innermost receiver. -/
def onInnermost (act : EStateM Error σ α) : EStateM Error (Dispatch σ) α := fun d =>
  onRoot (reaching d.claimed.reverse act) d

/-- The open elements after another one opens inside the innermost of them. -/
def markParent : List Frame → List Frame
  | [] => []
  | frame :: frames => { frame with hasChildren := true } :: frames

/-- Dispatches the opening of an element. -/
def onOpening (limit : Option Nat) (name : String) (attributes : Xml.Attributes) :
    EStateM Error (Dispatch σ) Unit := do
  match limit with
  | none => pure ()
  | some limit =>
    if limit ≤ (← get).frames.length then
      throw (.depthExceeded limit)
  modify fun d => { d with frames := markParent d.frames }
  let isClaimed ← onInnermost fun receiver =>
    let (isClaimed, receiver) := Receiver.claim receiver name attributes
    .ok isClaimed receiver
  modify fun d =>
    { d with
      frames := ⟨isClaimed, false⟩ :: d.frames
      claimed := if isClaimed then name :: d.claimed else d.claimed }

/-- Dispatches the closing of an element. -/
def onClosing (name text : String) : EStateM Error (Dispatch σ) Unit := do
  match (← get).frames with
  | [] => throw (.malformed (.unbalancedClose name))
  | frame :: frames =>
    modify fun d => { d with frames }
    if frame.isClaimed then
      modify fun d => { d with claimed := d.claimed.tail }
    else if !frame.hasChildren then
      onInnermost (Receiver.takeLeaf name text)

/-- Dispatches an event. -/
def step (limit : Option Nat) : Xml.Event → EStateM Error (Dispatch σ) Unit
  | .opening name attributes => onOpening limit name attributes
  | .closing name text => onClosing name text

end Dispatch

variable {σ : Type} [Receiver σ]

/-- Hands events to a receiver, nested no deeper than a limit. -/
def dispatch (limit : Option Nat) (events : List Xml.Event) : EStateM Error σ Unit := fun root =>
  match (events.forM (Dispatch.step limit)) (Dispatch.start root) with
  | .ok _ d => .ok () d.root
  | .error e d => .error e d.root

/-- Decodes a document into a receiver. A document that is not well formed leaves it untouched. -/
def decode (settings : Settings) (bytes : List UInt8) : EStateM Error σ Unit :=
  match Xml.Event.ofDocument settings.trim bytes with
  | .ok events => dispatch settings.maxDepth events
  | .error fault => throw (.malformed fault)

end CloudCodec.Decode
