import Reckoner.Session.Configuration

/-!
# Options

The options that every command takes, and the arguments that are left.
-/

namespace Reckoner

/-- A configuration and a deadline in milliseconds. -/
structure Options where
  configuration : Configuration
  timeout : Option Nat
  deriving DecidableEq

namespace Options

/-- Why arguments are refused. -/
inductive Refusal
  | invalidTimeout (text : String)
  | unknownOption (argument : String)
  deriving DecidableEq, Repr

/-- The wording of a refusal. -/
def Refusal.message : Refusal → String
  | .invalidTimeout text => "invalid timeout '" ++ text ++ "', expected milliseconds"
  | .unknownOption argument => "unknown option '" ++ argument ++ "'"

/-- Digits as a number of at most 64 bits. -/
def readDigits? (digits : List Char) : Option Nat :=
  if !digits.isEmpty && digits.all (fun digit => '0' ≤ digit && digit ≤ '9') then
    let value :=
      digits.foldl (fun value digit => 10 * value + (digit.toNat - '0'.toNat)) 0
    if value < 0x10000000000000000 then some value else none
  else none

/-- A number of milliseconds, which may have a plus sign. -/
def readMilliseconds? : List Char → Option Nat
  | '+' :: digits => readDigits? digits
  | digits => readDigits? digits

/-- Take in arguments one after the other; `rest` are the ones that are no options, last to
first. -/
def readFrom (options : Options) (rest : List String) :
    List String → Except Refusal (Options × List String)
  | [] => .ok (options, rest.reverse)
  | argument :: others =>
      match options.configuration.applyFlag? argument with
      | some configuration => readFrom { options with configuration } rest others
      | none =>
          match Text.after? "--timeout=".toList argument.toList with
          | some text =>
              match readMilliseconds? text with
              | some milliseconds =>
                  readFrom { options with timeout := some milliseconds } rest others
              | none => .error (.invalidTimeout (String.ofList text))
          | none =>
              if (Text.after? "--".toList argument.toList).isSome then
                .error (.unknownOption argument)
              else readFrom options (argument :: rest) others

/-- Split arguments into options, on top of a configuration, and what is left. -/
def read (arguments : List String) (configuration : Configuration) :
    Except Refusal (Options × List String) :=
  readFrom ⟨configuration, none⟩ [] arguments

end Options
end Reckoner
