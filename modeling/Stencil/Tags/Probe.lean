import Stencil.Render

/-! # Tags for watching an evaluation

Tags that suspend, defer, fail and report what they are called with, and write a log of the order
in which things happen. A missing parameter counts as null, and what is no integer as zero.
-/

namespace Stencil.Tags

def ticks (call : Call) (place : Nat) : Nat :=
  ((call.parameter place).asInt.getD 0).toInt.toNat

/-- A fresh value that ends after some suspensions. -/
def deferred (delay : Nat) (note : Option String) (outcome : Except Error Value) :
    Evaluation Value := do
  return .pending (← Evaluation.store Store.draw) delay note outcome

/-- Suspends `n` times inside of a call. -/
def suspend : Nat → Routine Store Unit
  | 0 => .done ()
  | n + 1 => .pause (suspend n)

/-- Suspends the call, logs the second parameter and gives it. -/
def wait : Handler := fun call => do
  call.requireCount 2
  Evaluation.ofAttempt ((suspend (ticks call 0)).bind fun _ => .done (.ok ()))
  Evaluation.store fun s => ((), s.write (call.parameter 1).text)
  return call.parameter 1

/-- Defers the second parameter, which is logged when it is there. -/
def defer : Handler := fun call => do
  call.requireCount 2
  deferred (ticks call 0) (some (call.parameter 1).text) (.ok (call.parameter 1))

/-- Defers a failure. -/
def boom : Handler := fun call =>
  deferred (ticks call 1) none (.error (call.error (.stated (call.parameter 0).text)))

def fail : Handler := fun call => call.reject (.stated (call.parameter 0).text)

def repeated : Handler := fun call => do
  call.requireCount 2
  let text := (call.parameter 0).asString.getD ""
  return .string (String.join (List.replicate (ticks call 1) text))

def echo : Handler := fun call => do
  let parameters := call.parameters.map fun value => value.typeName ++ "=" ++ value.text
  let body := match call.body with
    | some body => toString body.nodes.length
    | none => "none"
  return .string (call.name ++ "(" ++ ",".intercalate parameters ++ ") body=" ++ body ++ " at " ++
    call.source.describe)

def debug : Handler := fun call => do
  let body := match call.body with
    | some body => "Some(" ++ toString body.nodes.length ++ ")"
    | none => "None"
  return .string ("TagContext \x7b name: " ++ Text.quoted call.name ++ ", parameters: " ++
    Text.bracketed "[" "]" (call.parameters.map Value.debug) ++ ", body: " ++ body ++
    ", source: " ++ call.source.debug ++ ", .. \x7d")

/-- Shows what renders the call. -/
def inspect : Handler := fun call =>
  return .string (Scope.debug call.tagNames call.embeds call.depth)

def hexDigit (c : Char) : Nat :=
  if c.isDigit then c.toNat - '0'.toNat
  else if 'a' ≤ c ∧ c ≤ 'f' then c.toNat - 'a'.toNat + 10
  else if 'A' ≤ c ∧ c ≤ 'F' then c.toNat - 'A'.toNat + 10
  else 0

def hexBytes : List Char → List UInt8
  | high :: low :: rest => UInt8.ofNat (16 * hexDigit high + hexDigit low) :: hexBytes rest
  | _ => []

/-- The bytes that a text of hexadecimal digits writes. -/
def blob : Handler := fun call => return .bytes (hexBytes (call.parameter 0).text.toList)

/-- A lazy value. -/
def later : Handler := fun call => do
  return .lazy (← Evaluation.store Store.draw) (call.parameter 0)

def list : Handler := fun call => return .array call.parameters

def twice : Handler := fun call => do
  call.requireCount 0
  let first ← call.bodyText
  let second ← call.bodyText
  return .string (first ++ second)

/-- The values of the body. -/
def nodes : Handler := fun call => do (← call.requireBody).values

/-- How many templates lie around this one. -/
def depth : Handler := fun call => return .int (Int64.ofNat call.depth)

def knows : Handler := fun call =>
  return .bool (call.tagNames.contains (call.parameter 0).text)

def dump : Handler := fun _ => return .string (← Evaluation.data).text

def withProbes (tags : Registry) : Registry :=
  tags.registerAll
    [("wait", wait), ("defer", defer), ("boom", boom), ("fail", fail), ("repeat", repeated),
     ("echo", echo), ("debug", debug), ("inspect", inspect), ("blob", blob), ("later", later),
     ("list", list), ("twice", twice), ("nodes", nodes), ("depth", depth), ("knows", knows),
     ("dump", dump)]

end Stencil.Tags
