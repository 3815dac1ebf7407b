import Emane.Configuration.Impl.ParameterConvert

/-!
This module contains the parser of the lines of an emulation event log. One position goes through
the line, an argument that is empty ends it.
-/

namespace Emane
namespace Eel

def newline : Char :=
  Char.ofNat 10

def quote : Char :=
  Char.ofNat 34

inductive FormatError where
  | unterminatedString
  | invalidStartOfString
  deriving DecidableEq

inductive Fault where
  | format (e : FormatError) (input : Text)
  | conversion (e : ParameterConvert.Exception)
  | endless
  deriving DecidableEq

structure Outputs (δ : Type) where
  eventTime : δ
  eventType : Text
  moduleId : Text
  inputArguments : List Text
  deriving DecidableEq

namespace InputParser

def isWhite (c : Char) : Bool :=
  ParameterConvert.isBlank c || c = newline

def isDelimiter (c : Char) : Bool :=
  isWhite c || c = '#' || c = quote

def findFirst (p : Char → Bool) (input : Text) (pos : Nat) : Option Nat :=
  ((input.drop pos).findIdx? p).map (fun i => pos + i)

def substr (input : Text) (pos len : Nat) : Text :=
  (input.drop pos).take len

def getNextArgument (input : Text) : Option Nat → Except Fault (Text × Option Nat)
  | none => .ok ([], none)
  | some posStart =>
    match findFirst isDelimiter input posStart with
    | some posEnd =>
      if input[posEnd]? = some quote then
        if input[posStart]? = some quote then
          match findFirst (fun c => c = quote) input (posEnd + 1) with
          | some posEnd =>
            -- the position is that of the quote at the end
            .ok (substr input (posStart + 1) (posEnd - (posStart + 1)),
              findFirst (fun c => !isWhite c) input posEnd)
          | none => .error (.format .unterminatedString input)
        else
          .error (.format .invalidStartOfString input)
      else
        .ok (substr input posStart (posEnd - posStart), findFirst (fun c => !isWhite c) input posEnd)
    | none => .ok (input.drop posStart, none)

variable {δ : Type} (f : ParameterConvert.Floating δ)

def toFloat (argument : Text) : Except Fault δ :=
  match ParameterConvert.toDouble f f.floatLowest f.floatMax argument with
  | .ok value => .ok (f.toFloat value)
  | .error e => .error (.conversion e)

def addArgument (argument : Text) (argumentCount : Nat) (outputs : Outputs δ)
    : Except Fault (Outputs δ) :=
  match argumentCount with
  | 0 => do
    let eventTime ← toFloat f argument
    return { outputs with eventTime := eventTime }
  | 1 => return { outputs with moduleId := argument }
  | 2 => return { outputs with eventType := argument }
  | _ + 3 => return { outputs with inputArguments := outputs.inputArguments ++ [argument] }

def parseArguments (input : Text) : Nat → Option Nat → Nat → Outputs δ → Except Fault (Bool × Outputs δ)
  | 0, _, _, _ => .error .endless
  | fuel + 1, pos, argumentCount, outputs => do
    let (argument, pos) ← getNextArgument input pos
    if argument = [] then
      return (argumentCount ≥ 3, outputs)
    else
      let outputs ← addArgument f argument argumentCount outputs
      parseArguments input fuel pos (argumentCount + 1) outputs

variable [Zero δ]

def parse (input : Text) : Except Fault (Bool × Outputs δ) :=
  parseArguments f input (input.length + 1)
    (findFirst (fun c => !ParameterConvert.isBlank c) input 0) 0 ⟨0, [], [], []⟩

end InputParser

end Eel
end Emane
