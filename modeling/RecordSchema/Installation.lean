/-
# The installed set

A program installs one set of records and uses it from then on.  The set is installed by the
first attempt whose declarations resolve; every later attempt leaves it in force and does not
even look at its declarations.  An attempt that fails installs nothing.

`Operation` lists what a program can do with the installed set, and `step` says what comes of
it: the installation afterwards, the outcome, and the lines for the log.
-/
import RecordSchema.TestRead.Catalogue

namespace RecordSchema

/-- Whether a set is installed, and which one. -/
structure Installation where
  /-- The set in force. -/
  inForce : Option Schemas

namespace Installation

/-- Nothing is installed. -/
def nothing : Installation := ⟨none⟩

/-- The set in force, which should be there. -/
def installed (i : Installation) : Except Fault Schemas :=
  match i.inForce with
  | some S => .ok S
  | none => .error .unresolved

/-- All the errors of a payload, by the set in force. -/
def validate (i : Installation) (record : String) (payload : Json) :
    Except Fault (List ValidationError) :=
  i.installed.bind fun S => S.validate record payload

/-- The record that a payload stands for, by the set in force. -/
def construct {α : Type} (i : Installation) (R : RecordType α) (payload : Json) :
    Except Fault (Except ValidationError α) :=
  i.installed.bind fun S => S.construct R payload

/-- The written form of a record, by the set in force. -/
def encode {α : Type} (i : Installation) (R : RecordType α) (r : α) (options : EncodeOptions) :
    Except Fault Members :=
  i.installed.bind fun S => S.encode R r options

end Installation

/-- Something that can be done with the installed set. -/
inductive Operation : Type 1 where
  /-- Installs the record types of a test read. -/
  | resolve
  /-- Installs a set of other declarations. -/
  | install (declared : List Declaration)
  /-- Asks for the set in force. -/
  | installed
  /-- Validates a payload. -/
  | validate (record : String) (payload : Json)
  /-- Constructs a record. -/
  | construct {α : Type} (R : RecordType α) (payload : Json)
  /-- Encodes a record. -/
  | encode {α : Type} (R : RecordType α) (r : α) (options : EncodeOptions)

/-- What an operation yields. -/
inductive Outcome : Type 1 where
  /-- The set in force, and whether the operation has built it. -/
  | schemas (inForce : Schemas) (built : Bool)
  /-- The errors of a payload. -/
  | errors (found : List ValidationError)
  /-- A record, or the error of its payload. -/
  | constructed {α : Type} (result : Except ValidationError α)
  /-- The members of a record in written form. -/
  | encoded (members : Members)

/-- What comes of an operation. -/
structure Step where
  /-- The installation afterwards. -/
  after : Installation
  /-- The outcome. -/
  outcome : Except Fault Outcome
  /-- The lines for the log. -/
  events : List Event

namespace Installation

/-- What comes of an operation that leaves the installation alone. -/
def unchanged {β : Type} (i : Installation) (outcome : β → Outcome) (events : List Event)
    (result : Except Fault β) : Step where
  after := i
  outcome := match result with
    | .ok b => .ok (outcome b)
    | .error f => .error f
  events := events

/-- Installs the set that declarations resolve to, unless a set is in force. -/
def install (i : Installation) (declared : List Declaration) : Step :=
  match i.inForce with
  | some S => ⟨i, .ok (.schemas S false), []⟩
  | none =>
    match resolve declared with
    | .ok S => ⟨⟨some S⟩, .ok (.schemas S true), Event.ofResolved (.ok S)⟩
    | .error e => ⟨i, .error (.unresolvable e), Event.ofResolved (.error e)⟩

/-- What comes of one operation. -/
def step (i : Installation) : Operation → Step
  | .resolve => i.install Model.declarations
  | .install declared => i.install declared
  | .installed => i.unchanged (.schemas · false) [] i.installed
  | .validate record payload => i.unchanged .errors [] (i.validate record payload)
  | .construct R payload =>
    i.unchanged .constructed (Event.ofConstructed R.name (i.construct R payload))
      (i.construct R payload)
  | .encode R r options => i.unchanged .encoded [] (i.encode R r options)

/-- What comes of operations one after the other. -/
def run (i : Installation) : List Operation → List Step
  | [] => []
  | op :: rest => i.step op :: (i.step op).after.run rest

end Installation

end RecordSchema
