/-
# Transliterating, deleting and squeezing bytes

`tr` maps the bytes of one set to those of another, or deletes them, or squeezes runs of them. A
set is written as characters, ranges, escapes and named classes, and is expanded to the list of its
bytes.
-/
import HtmlMinifier.Process.Basic

namespace HtmlMinifier.Process

/-- The bytes from one to another. -/
def byteRange (first last : UInt8) : Bytes :=
  (List.range (last.toNat + 1 - first.toNat)).map fun offset => UInt8.ofNat (first.toNat + offset)

/-- The bytes that belong to a named class, in ascending order. -/
def classBytes? (name : Text) : Option Bytes :=
  let ascii := byteRange 0 127
  let pick := fun (p : Char → Bool) => some (ascii.filter fun byte => p (Char.ofNat byte.toNat))
  match String.ofList name with
  | "alpha" => pick Char.isAlpha
  | "digit" => pick Char.isDigit
  | "alnum" => pick Char.isAlphanum
  | "upper" => pick Char.isUpper
  | "lower" => pick Char.isLower
  | "blank" => pick fun c => c = ' ' || c = '\t'
  | "space" => pick fun c => Text.isBlank c || c = '\x0b'
  | "cntrl" => pick fun c => c.toNat < 32 || c.toNat = 127
  | "print" => pick fun c => 32 ≤ c.toNat && c.toNat < 127
  | "graph" => pick fun c => 32 < c.toNat && c.toNat < 127
  | "punct" => pick fun c => 32 < c.toNat && c.toNat < 127 && !c.isAlphanum
  | "xdigit" => pick fun c => c.isDigit || ('a' ≤ c && c ≤ 'f') || ('A' ≤ c && c ≤ 'F')
  | _ => none

/-- One member of a written set. -/
inductive SetItem where
  | byte (value : UInt8)
  | hyphen
  | named (name : Text)
  deriving DecidableEq, Repr

/-- The members of a written set. A hyphen that was escaped is a byte like any other. -/
def setItems (fuel : Nat) (text : Text) : List SetItem :=
  match fuel, text with
  | 0, _ => []
  | _, [] => []
  | fuel + 1, '\\' :: c :: rest =>
      match escapeByte? c with
      | some byte => .byte byte :: setItems fuel rest
      | none =>
          if (octalDigit? c).isSome then
            let octal := readOctal 3 0 (c :: rest)
            .byte (UInt8.ofNat octal.1) :: setItems fuel octal.2
          else (String.utf8EncodeChar c).map .byte ++ setItems fuel rest
  | fuel + 1, '[' :: ':' :: rest =>
      let name := rest.takeWhile (· ≠ ':')
      match rest.dropWhile (· ≠ ':') with
      | ':' :: ']' :: after => .named name :: setItems fuel after
      | _ => .byte 91 :: setItems fuel (':' :: rest)
  | fuel + 1, '-' :: rest => .hyphen :: setItems fuel rest
  | fuel + 1, c :: rest => (String.utf8EncodeChar c).map .byte ++ setItems fuel rest

/-- What is wrong with a written set. -/
inductive SetError where
  | reversedRange (first last : UInt8)
  | unknownClass (name : Text)
  deriving DecidableEq, Repr

/-- A byte as complaints show it: a visible character as itself, any other byte in octal. -/
def showByte (byte : UInt8) : String :=
  if 32 ≤ byte && byte < 127 then String.ofList [Char.ofNat byte.toNat]
  else
    let digits := Nat.toDigits 8 byte.toNat
    String.ofList ('\\' :: List.replicate (3 - digits.length) '0' ++ digits)

/-- The error in words. -/
def SetError.message : SetError → String
  | .reversedRange first last =>
      "tr: range-endpoints of '" ++ showByte first ++ "-" ++ showByte last ++
        "' are in reverse collating sequence order"
  | .unknownClass name => "tr: invalid character class '" ++ String.ofList name ++ "'"

/-- The bytes of a set. A hyphen between two bytes is a range, which has to ascend. -/
def expandSet : List SetItem → Except SetError Bytes
  | .byte first :: .hyphen :: .byte last :: items =>
      if first ≤ last then (expandSet items).map (byteRange first last ++ ·)
      else .error (.reversedRange first last)
  | .byte value :: items => (expandSet items).map (value :: ·)
  | .hyphen :: items => (expandSet items).map (45 :: ·)
  | .named name :: items =>
      match classBytes? name with
      | some bytes => (expandSet items).map (bytes ++ ·)
      | none => .error (.unknownClass name)
  | [] => .ok []

/-- The bytes of a set as it is written. -/
def parseSet (text : Text) : Except SetError Bytes := expandSet (setItems text.length text)

/-- Every byte that is not in a set, in ascending order. -/
def complementSet (set : Bytes) : Bytes := (byteRange 0 255).filter fun byte => !set.contains byte

/-- The byte that stands at the place of a byte in two sets; the second set goes on with its last
byte. Of several places the last counts. -/
def transliterateByte (source target : Bytes) (byte : UInt8) : UInt8 :=
  let padded := target ++ List.replicate (source.length - target.length)
    (target.getLast?.getD byte)
  match (source.zip padded).reverse.find? fun pair => pair.1 = byte with
  | some pair => pair.2
  | none => byte

/-- Keep one of every run of a byte of the set. -/
def squeeze (set : Bytes) (previous : Option UInt8) : Bytes → Bytes
  | [] => []
  | byte :: bytes =>
      if previous = some byte && set.contains byte then squeeze set previous bytes
      else byte :: squeeze set (some byte) bytes

/-- What a transliteration is asked to do. -/
structure TransliterateOptions where
  complement : Bool := false
  delete : Bool := false
  squeezeRuns : Bool := false
  truncate : Bool := false

/-- Read the option letters at the head of the arguments. -/
def TransliterateOptions.read (options : TransliterateOptions) :
    List Text → Except String (TransliterateOptions × List Text)
  | [] => .ok (options, [])
  | ['-', '-'] :: arguments => .ok (options, arguments)
  | ('-' :: letter :: letters) :: arguments =>
      let chosen : Except String TransliterateOptions :=
        (letter :: letters).foldlM (fun current c =>
          if c = 'c' || c = 'C' then Except.ok { current with complement := true }
          else if c = 'd' then .ok { current with delete := true }
          else if c = 's' then .ok { current with squeezeRuns := true }
          else if c = 't' then .ok { current with truncate := true }
          else .error ("tr: invalid option -- '" ++ String.ofList [c] ++
            "'\nTry 'tr --help' for more information.")) options
      match chosen with
      | .ok current => current.read arguments
      | .error complaint => .error complaint
  | arguments => .ok (options, arguments)

/-- Run `tr` with one set. -/
def transliterateOne (options : TransliterateOptions) (name : Text) (source input : Bytes) :
    Report :=
  match options.delete, options.squeezeRuns with
  | true, false => .success (input.filter fun byte => !source.contains byte)
  | false, true => .success (squeeze source none input)
  | deletes, _ =>
      .failure 1 ("tr: missing operand after '" ++ String.ofList name ++
        "'\nTwo strings must be given when " ++
        (if deletes then "both deleting and squeezing repeats." else "translating.") ++
        "\nTry 'tr --help' for more information.")

/-- Run `tr` with two sets. -/
def transliterateTwo (options : TransliterateOptions) (name : Text) (source target input : Bytes) :
    Report :=
  if options.delete then
    if options.squeezeRuns then
      .success (squeeze target none (input.filter fun byte => !source.contains byte))
    else
      .failure 1 ("tr: extra operand '" ++ String.ofList name ++
        "'\nOnly one string may be given when deleting without squeezing repeats." ++
        "\nTry 'tr --help' for more information.")
  else if target = [] && !options.truncate then
    .failure 1 "tr: when not truncating set1, string2 must be non-empty"
  else
    let kept := if options.truncate then source.take target.length else source
    let mapped := input.map (transliterateByte kept target)
    .success (if options.squeezeRuns then squeeze target none mapped else mapped)

/-- Run `tr` on its arguments and its input. -/
def transliterate (arguments : List Text) (input : Bytes) : Report :=
  match TransliterateOptions.read {} arguments with
  | .error complaint => .failure 1 complaint
  | .ok (options, names) =>
      let chosen := fun set => if options.complement then complementSet set else set
      match names.mapM parseSet with
      | .error reason => .failure 1 reason.message
      | .ok [] => .failure 1 "tr: missing operand\nTry 'tr --help' for more information."
      | .ok [set] => transliterateOne options (names.headD []) (chosen set) input
      | .ok [set, target] => transliterateTwo options (names.getLastD []) (chosen set) target input
      | .ok (_ :: _ :: _ :: _) =>
          .failure 1 ("tr: extra operand '" ++ String.ofList ((names.drop 2).headD []) ++
            "'\nTry 'tr --help' for more information.")

end HtmlMinifier.Process
