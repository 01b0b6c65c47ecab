import Mathlib.Data.List.Basic
/-!
# The extension environment channel

`FxDKExtensionEnvironmentChannel` answers the remote agent's environment calls.  Scanning finds
no extension (the channel answers an empty list), diagnostics are not implemented, and of the
telemetry commands only `logTelemetry` does anything: the telemetry service publishes its event.
Every other command is refused with an error that names it.  `call` is `async`, so an error it
throws rejects its promise; `listen` throws at once.

The telemetry service's published events are the channel's state.  A call reads its arguments'
fields only where the source does, and an argument object that is `undefined` there is a
`TypeError`.
-/

namespace Fxcode.Server.Channel

/-- `ITelemetryData`: the properties of a telemetry event. -/
abbrev TelemetryData := List (String × String)

/-- The fields of a call's arguments the channel reads, `none` where they are `undefined`. -/
structure Args where
  language : Option String
  eventName : Option String
  data : Option TelemetryData
  deriving DecidableEq, Repr

/-- An event `publicLog` published. -/
structure Event where
  eventName : Option String
  data : Option TelemetryData
  deriving DecidableEq, Repr

/-- What a call's promise settles with. -/
inductive Value
  /-- `undefined`. -/
  | undefined
  /-- `[]`: the extensions `scanExtensions` finds. -/
  | noExtensions
  deriving DecidableEq, Repr

/-- What a call's promise rejects with. -/
inductive Error
  /-- `new Error(message)`. -/
  | error (message : String)
  /-- The `TypeError` of reading `property` of `undefined`. -/
  | typeError (property : String)
  deriving DecidableEq, Repr

/-- `call(context, command, args)`: what its promise settles with, and the published events after
it. -/
def call (published : List Event) (command : String) (args : Option Args) :
    Except Error Value × List Event :=
  match command with
  | "scanExtensions" =>
    match args with
    | none => (.error (.typeError "language"), published)
    | some _ => (.ok .noExtensions, published)
  | "scanSingleExtension" => (.ok .undefined, published)
  | "getDiagnosticInfo" => (.error (.error "not implemented"), published)
  | "disableTelemetry" => (.ok .undefined, published)
  | "logTelemetry" =>
    match args with
    | none => (.error (.typeError "eventName"), published)
    | some args => (.ok .undefined, published ++ [⟨args.eventName, args.data⟩])
  | "flushTelemetry" => (.ok .undefined, published)
  | _ => (.error (.error ("Invalid call \x27" ++ command ++ "\x27")), published)

/-- `listen(_, event)`: the channel has no events. -/
def listen (event : String) : Except Error Unit := .error (.error ("Invalid listen \x27" ++ event ++ "\x27"))

end Fxcode.Server.Channel
