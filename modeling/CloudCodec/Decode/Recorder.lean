/-
# Recorders

A recorder writes down what it is offered. It shows how a document is dispatched, under any
choice of the elements that are claimed, of the children that cannot be found again, and of the
leaves that are refused.
-/
import CloudCodec.Decode.Receiver

namespace CloudCodec.Decode

/-- How a recorder and its children behave. -/
structure Recorder.Rules where
  /-- The names of the elements that are claimed. -/
  claimed : List String
  /-- The names under which no child is found. -/
  forgotten : List String
  /-- The names of the leaves that are refused. -/
  refused : List String

/-- A receiver that writes down what it is offered. -/
structure Recorder where
  /-- The elements that opened, last one first. -/
  opened : List (String × Xml.Attributes)
  /-- The leaves that closed, last one first. -/
  closed : List (String × String)
  /-- The children by the name of the element they claimed, last one first. -/
  children : List (String × Recorder)
  /-- How it behaves. -/
  rules : Recorder.Rules

namespace Recorder

/-- The recorder that has been offered nothing. -/
def start (rules : Rules) : Recorder := ⟨[], [], [], rules⟩

/-- The children with the first one of a given name replaced. -/
def replaceFirst (name : String) (child : Recorder) :
    List (String × Recorder) → List (String × Recorder)
  | [] => []
  | (n, c) :: rest =>
    if n = name then (n, child) :: rest else (n, c) :: replaceFirst name child rest

instance : Receiver Recorder where
  claim r name attributes :=
    let r := { r with opened := (name, attributes) :: r.opened }
    if r.rules.claimed.contains name then
      (true, { r with children := (name, start r.rules) :: r.children })
    else (false, r)
  child? r name :=
    if r.rules.forgotten.contains name then none else r.children.lookup name
  withChild r name child := { r with children := replaceFirst name child r.children }
  takeLeaf name text := fun r =>
    if r.rules.refused.contains name then .error (.unexpectedValue name text .nothing) r
    else .ok () { r with closed := (name, text) :: r.closed }

end Recorder

end CloudCodec.Decode
