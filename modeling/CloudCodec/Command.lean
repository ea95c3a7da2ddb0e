/-
# Commands

The two commands of the command line: print a response that was saved in a file, and print the
parameters of network interfaces that are specified in a file. What a command prints is a function
of the contents of its file.
-/
import CloudCodec.Json.Printer
import CloudCodec.Request.SpecificationReader
import CloudCodec.Response.Answer
import CloudCodec.Response.Printer

namespace CloudCodec

/-- A command with its arguments. -/
inductive Command
  /-- Print the response to an action. -/
  | decode (action : Action) (path : String)
  /-- Print the parameters of network interfaces behind a scope. -/
  | encode (scope : Option String) (path : String)
  deriving DecidableEq, Repr

namespace Command

/-- Why a command failed. -/
inductive Failure
  /-- The arguments are those of no command. -/
  | usage
  /-- There is no action of that name. -/
  | unknownAction (name : String)
  /-- The file cannot be read, for a reason that the system gives. -/
  | unreadable (path reason : String)
  /-- The response cannot be decoded. -/
  | undecodable (action : Action) (error : Decode.Error)
  /-- The file holds no list of interfaces. -/
  | noInterfaces (path : String)
  /-- The interfaces cannot be encoded. -/
  | unencodable (error : Parameter.Error)
  deriving DecidableEq, Repr

/-- How the commands are called. -/
def usageText : String :=
  "usage: ec2wire-inspect decode <Action> <response.xml>\n"
    ++ "       ec2wire-inspect encode <prefix|-> <interfaces.json>"

/-- The wording of a failure. -/
def Failure.message : Failure → String
  | .usage => usageText
  | .unknownAction name => "unknown action: " ++ name
  | .unreadable path _ => "failed to read " ++ path
  | .undecodable action _ => "failed to decode " ++ action.name ++ " response"
  | .noInterfaces path => "invalid interface list in " ++ path
  | .unencodable _ => "failed to encode network interfaces"

/-- The wording of what caused a failure. -/
def Failure.cause? : Failure → Option String
  | .unreadable _ reason => some reason
  | .undecodable _ error => some error.message
  | .unencodable error => some error.message
  | .usage | .unknownAction _ | .noInterfaces _ => none

/-- A text with each of its lines moved to the right. -/
def indented (s : String) : String :=
  s.toList.foldl (fun out c => if c = '\n' then out ++ "\n    " else out.push c) "    "

/-- What is told of a failure: its wording, and its cause below. Of a file that holds no
interfaces only the first line is told. -/
def Failure.report (failure : Failure) : String :=
  let head := "Error: " ++ failure.message
  match failure, failure.cause? with
  | .noInterfaces _, _ => String.ofList (head.toList.takeWhile (· != '\n'))
  | _, some cause => head ++ "\n\nCaused by:\n" ++ indented cause ++ "\n"
  | _, none => head ++ "\n"

/-- The command of some arguments. A scope that is empty or `-` is none. -/
def parse : List String → Except Failure Command
  | [command, argument, path] =>
    if command = "decode" then
      match Action.ofName? argument with
      | some action => .ok (.decode action path)
      | none => .error (.unknownAction argument)
    else if command = "encode" then
      .ok (.encode (if argument = "" ∨ argument = "-" then none else some argument) path)
    else .error .usage
  | _ => .error .usage

/-- The file that a command reads. -/
def path : Command → String
  | .decode _ path => path
  | .encode _ path => path

/-- What a command prints, given the contents of its file or the reason why there are none. -/
def run (settings : Decode.Settings) (contents : Except String (List UInt8)) :
    Command → Except Failure String
  | .decode action path => do
    let bytes ← contents.mapError (.unreadable path)
    let node ← (Response.Answer.decode settings action bytes).mapError (.undecodable action)
    return node.toJson.pretty ++ "\n"
  | .encode scope path => do
    let bytes ← contents.mapError (.unreadable path)
    let text ← (Utf8.decode bytes).mapError fun _ =>
      .unreadable path "stream did not contain valid UTF-8"
    match Request.Interface.parseAll? text with
    | none => throw (.noInterfaces path)
    | some interfaces =>
      let set ← (Request.Interface.encodeAll scope interfaces).mapError .unencodable
      return (Json.ofPairs set.entries).pretty ++ "\n"

end Command

end CloudCodec
