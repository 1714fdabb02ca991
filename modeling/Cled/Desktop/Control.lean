import Cled.Desktop.Tunnel

/-!
# What the relay connection should be doing

The connection follows the settings and whether the user is signed in.  Both
reach it through one control, which works out what to do and wakes the connection
task if that changes.
-/

namespace Cled.Desktop

/-! ## Settings -/

inductive ConnectionMode where
  | lan
  | relay
  deriving DecidableEq

@[ext]
structure Settings where
  connectionMode : ConnectionMode
  relayUrl : String
  deriving DecidableEq

/-- What is used of a URL library. -/
structure UrlFormat where
  Url : Type
  parse : String → Option Url
  scheme : Url → String
  host : Url → Option String
  setScheme : Url → String → Option Url
  path : Url → String
  setPath : Url → String → Url
  clearQuery : Url → Url
  clearFragment : Url → Url
  text : Url → String

/-- Every text is a URL, and none is changed. -/
def exampleUrls : UrlFormat where
  Url := String
  parse := some
  scheme _ := "https"
  host := some
  setScheme url _ := some url
  path url := url
  setPath url _ := url
  clearQuery := id
  clearFragment := id
  text := id

/-- Checks that the input is an `http://` or `https://` URL with a host, and
returns it trimmed. -/
def validateRelayUrl (format : UrlFormat) (input : String) :
    Except String String :=
  let input := trim input
  if input = "" then .error "Enter a relay URL."
  else
    let valid := (format.parse input).any fun url =>
      (format.scheme url = "http" || format.scheme url = "https") &&
        (format.host url).any (· ≠ "")
    if valid then .ok input
    else
      .error ("Enter a full URL starting with http:// or https://, " ++
        "e.g. https://relay.example.com")

/-! ## The control -/

/-- What the connection should be doing. -/
inductive Desired where
  | off
  | needsSignIn
  | connect (url : String)
  deriving DecidableEq

/-- Everything this is derived from. -/
structure Inputs where
  mode : ConnectionMode
  relayUrl : String
  signedIn : Bool
  deriving DecidableEq

/-- `str::trim_end_matches('/')`. -/
def trimSlash (text : String) : String :=
  String.ofList (text.toList.rdropWhile (· = '/'))

/-- The WebSocket endpoint of a saved relay URL. -/
def socketUrl (format : UrlFormat) (relayUrl : String) : Option String :=
  (format.parse relayUrl).bind fun url =>
    let scheme :=
      if format.scheme url = "http" then some "ws"
      else if format.scheme url = "https" then some "wss"
      else none
    scheme.bind fun scheme =>
      (format.setScheme url scheme).map fun url =>
        let url := format.setPath url (trimSlash (format.path url) ++ "/relay")
        format.text (format.clearFragment (format.clearQuery url))

def Desired.fromInputs (format : UrlFormat) (inputs : Inputs) : Desired :=
  if inputs.mode ≠ .relay then .off
  else if inputs.signedIn = false then .needsSignIn
  else
    match socketUrl format inputs.relayUrl with
    | some url => .connect url
    | none => .off

/-- The inputs, and what the connection task is told.  The version counts the
changes of what it is told. -/
structure Control where
  inputs : Inputs
  desired : Desired
  version : ℕ

namespace Control

variable (format : UrlFormat)

def start (inputs : Inputs) : Control :=
  ⟨inputs, .fromInputs format inputs, 0⟩

/-- Updates the inputs and wakes the connection task if that changes what it
should do. -/
def update (control : Control) (change : Inputs → Inputs) : Control :=
  let inputs := change control.inputs
  let next := Desired.fromInputs format inputs
  { inputs
    desired := next
    version :=
      if next = control.desired then control.version else control.version + 1 }

def configure (control : Control) (settings : Settings) : Control :=
  control.update format fun inputs =>
    { inputs with
      mode := settings.connectionMode
      relayUrl := settings.relayUrl }

def setSignedIn (control : Control) (signedIn : Bool) : Control :=
  control.update format fun inputs => { inputs with signedIn }

/-- The task is told what the inputs say. -/
def Derived (control : Control) : Prop :=
  control.desired = .fromInputs format control.inputs

variable (control : Control)

theorem derived_start (inputs : Inputs) : (start format inputs).Derived format :=
  rfl

theorem derived_update (change : Inputs → Inputs) :
    (control.update format change).Derived format := rfl

@[simp]
theorem update_inputs (change : Inputs → Inputs) :
    (control.update format change).inputs = change control.inputs := rfl

@[simp]
theorem setSignedIn_inputs (signedIn : Bool) :
    (control.setSignedIn format signedIn).inputs =
      { control.inputs with signedIn } := rfl

@[simp]
theorem configure_inputs (settings : Settings) :
    (control.configure format settings).inputs =
      ⟨settings.connectionMode, settings.relayUrl, control.inputs.signedIn⟩ :=
  rfl

end Control

end Cled.Desktop
