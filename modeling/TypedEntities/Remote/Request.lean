import TypedEntities.Filter
import TypedEntities.Json.Value
import TypedEntities.Settings.Basic

/-!
# Requests

What is sent to the server and what comes back. A request has parameters, which its address carries in
form encoding: letters, digits and a few marks stand for themselves, a blank is a plus sign, and every
other byte is a percent sign with two digits. The two headers of the technical preview go together.
-/

namespace TypedEntities.Remote

/-- What a request does. -/
inductive Method
  | get
  | post
deriving DecidableEq, Repr, Inhabited

/-- The name of a method. -/
def Method.name : Method → String
  | .get => "GET"
  | .post => "POST"

/-- A request to the server. -/
structure Request where
  method : Method
  /-- The address without parameters. -/
  url : String
  parameters : List (String × String)
  /-- The mode that the request is made in. -/
  mode : ApiMode
  body : Option Json
deriving Inhabited

/-- What comes back. -/
inductive Reply
  /-- No answer; the cause is the transport's. -/
  | none (cause : String)
  | answer (status : Nat) (body : String)
deriving Repr, Inhabited

/-- What carries requests to the server, with the state that it keeps. -/
abbrev Exchange (ω : Type) := Request → ω → Reply × ω

/-- Carries nothing: no request is answered. -/
def Exchange.offline : Exchange Unit := fun _ wire => (.none "no connection", wire)

/-- Whether a status says that the request succeeded. -/
def isSuccess (status : Nat) : Bool := 200 ≤ status && status < 300

/-! ## Headers -/

/-- The headers that say how a request wants to be served. -/
def Request.headers (r : Request) : List (String × String) :=
  match r.mode with
  | .default => []
  | .technicalPreview =>
    [("HPECLIENTTYPE", "HPE_REST_API_TECH_PREVIEW"), ("ALM-OCTANE-TECH-PREVIEW", "true")]

/-! ## Addresses -/

/-- Whether a byte stands for itself in form encoding. -/
def isPlain (b : UInt8) : Bool :=
  let c := Char.ofNat b.toNat
  b < 128 && (c.isAlphanum || ['*', '-', '.', '_'].contains c)

/-- A hexadecimal digit, in upper case. -/
def upperHex (n : Nat) : Char := if n < 10 then Char.ofNat (48 + n) else Char.ofNat (55 + n)

/-- A byte in form encoding. -/
def encodeByte (b : UInt8) : List Char :=
  if isPlain b then [Char.ofNat b.toNat]
  else if b = 32 then ['+']
  else ['%', upperHex (b.toNat / 16), upperHex (b.toNat % 16)]

/-- A text in form encoding. -/
def formEncode (text : String) : String :=
  String.ofList (text.toUTF8.toList.flatMap encodeByte)

/-- Parameters in form encoding. -/
def encodeParameters (parameters : List (String × String)) : String :=
  "&".intercalate (parameters.map fun p => formEncode p.1 ++ "=" ++ formEncode p.2)

/-- The whole address: parameters come after a question mark, or after those that the address has. -/
def Request.address (r : Request) : String :=
  if r.parameters.isEmpty then r.url
  else r.url ++ (if r.url.toList.contains '?' then "&" else "?") ++ encodeParameters r.parameters

end TypedEntities.Remote
