import ImageAudit.Sql.Value
import ImageAudit.Text.Hex

/-! # Texts in functions

Functions count the characters of a text, which are a byte each unless the byte begins a longer
character. Patterns are matched character by character.
-/

namespace ImageAudit.Sql

namespace TextFunction

/-- The length of the character that a text begins with. -/
def characterLength : Bytes → Nat
  | [] => 0
  | first :: rest =>
    if first < 0xC0 then 1 else 1 + (rest.takeWhile fun byte => 0x80 ≤ byte && byte < 0xC0).length

/-- The characters of a text. The fuel bounds their number. -/
def charactersOf : Nat → Bytes → List Bytes
  | 0, _ => []
  | _, [] => []
  | fuel + 1, text =>
    let length := characterLength text
    text.take length :: charactersOf fuel (text.drop length)

/-- The characters of a text, which ends at a zero byte. -/
def characters (text : Bytes) : List Bytes :=
  let text := text.untilZero
  charactersOf text.length text

def ofCodePoint (code : Int) : Bytes :=
  if code < 0 ∨ 0x10FFFF < code then [0xEF, 0xBF, 0xBD]
  else
    let code := code.toNat
    let tail (shift : Nat) : UInt8 := UInt8.ofNat (0x80 + (code >>> shift) % 64)
    if code < 0x80 then [UInt8.ofNat code]
    else if code < 0x800 then [UInt8.ofNat (0xC0 + (code >>> 6)), tail 0]
    else if code < 0x10000 then [UInt8.ofNat (0xE0 + (code >>> 12)), tail 6, tail 0]
    else [UInt8.ofNat (0xF0 + (code >>> 18)), tail 12, tail 6, tail 0]

/-- The number of the character that a text begins with. -/
def codePoint (text : Bytes) : Nat :=
  match text with
  | [] => 0
  | first :: rest =>
    if first < 0xC0 then first.toNat
    else
      let lead :=
        if first < 0xE0 then first.toNat % 32
        else if first < 0xF0 then first.toNat % 16
        else if first < 0xF8 then first.toNat % 8
        else if first < 0xFC then first.toNat % 4
        else first.toNat % 2
      let tail := rest.takeWhile fun byte => 0x80 ≤ byte && byte < 0xC0
      let code := tail.foldl (fun code byte => (code * 64 + byte.toNat % 64) % 0x100000000) lead
      if code < 0x80 ∨ code / 2048 = 27 ∨ code / 2 = 0x7FFF then 0xFFFD else code

/-- The part of some items from a place on that counts from one; a negative place counts from the
end, and a negative count takes what stands in front. -/
def part (items : List α) (start : Int) (count : Option Int) : List α :=
  let length : Int := items.length
  let isBefore := count.any (· < 0)
  let wanted : Int := match count with
    | some count => count.natAbs
    | none => length + start.natAbs + 1
  let (start, wanted) :=
    if start < 0 then
      if start + length < 0 then (0, max 0 (wanted + start + length)) else (start + length, wanted)
    else if 0 < start then (start - 1, wanted)
    else (0, if 0 < wanted then wanted - 1 else wanted)
  let (start, wanted) :=
    if isBefore then
      if start - wanted < 0 then (0, start) else (start - wanted, wanted)
    else (start, wanted)
  (items.drop start.toNat).take wanted.toNat

/-- Where a piece first occurs, counting from one; zero if it does not. -/
def occurrence [BEq α] (piece : List α) : List α → Nat → Nat
  | [], place => if piece.isEmpty then place else 0
  | item :: rest, place =>
    if piece.isPrefixOf (item :: rest) then place else occurrence piece rest (place + 1)

/-- The text with one piece in place of another. The fuel bounds the steps. -/
def replaceOf (piece replacement : Bytes) : Nat → Bytes → Bytes
  | 0, text => text
  | _, [] => []
  | fuel + 1, byte :: rest =>
    if piece.isPrefixOf (byte :: rest) then
      replacement ++ replaceOf piece replacement fuel ((byte :: rest).drop piece.length)
    else byte :: replaceOf piece replacement fuel rest

/-- The items without those of a set at the beginning. -/
def trimStart (set : List Bytes) (items : List Bytes) : List Bytes := items.dropWhile set.contains

/-- The items without those of a set at the end. -/
def trimEnd (set : List Bytes) (items : List Bytes) : List Bytes :=
  (items.reverse.dropWhile set.contains).reverse

/-! ## Patterns -/

structure PatternRule where
  many : Bytes
  one : Bytes
  /-- Whether brackets stand around the characters that are accepted. -/
  hasSets : Bool
  /-- Whether the case of ASCII letters matters. -/
  isExact : Bool
  escape : Option Bytes

/-- Patterns of the operator that ignores the case of letters. -/
def PatternRule.like (escape : Option Bytes) : PatternRule := ⟨[0x25], [0x5F], false, false, escape⟩

/-- Patterns as for the names of files. -/
def PatternRule.glob : PatternRule := ⟨[0x2A], [0x3F], true, true, none⟩

/-- What follows a set of characters, and whether the set has the character. `before` is one that a
range could begin with. -/
def inSet (character : Bytes) (before : Option Bytes) (found : Bool) :
    List Bytes → Option (Bool × List Bytes)
  | [] => none
  | [item] => if item = [0x5D] then some (found, []) else none
  | item :: next :: rest =>
    if item = [0x5D] then some (found, next :: rest)
    else
      match before, decide (item = [0x2D] ∧ next ≠ [0x5D]) with
      | some low, true =>
        let within := codePoint low ≤ codePoint character && codePoint character ≤ codePoint next
        inSet character none (found || within) rest
      | _, _ => inSet character (some item) (found || character == item) (next :: rest)

/-- What follows a set of characters, and whether it accepts a character. A closing bracket at the
beginning is one of the characters. -/
def accepts (character : Bytes) (pattern : List Bytes) : Option (Bool × List Bytes) := do
  let isInverted := pattern.head? = some [0x5E]
  let pattern := if isInverted then pattern.drop 1 else pattern
  let (found, rest) ←
    if pattern.head? = some [0x5D] then inSet character none (character == [0x5D]) (pattern.drop 1)
    else inSet character none false pattern
  return (found != isInverted, rest)

/-- Whether two characters are the same under a rule. -/
def sameCharacter (rule : PatternRule) (a b : Bytes) : Bool :=
  if rule.isExact then a == b else sameName a b

/-- Whether a text matches a pattern. The fuel bounds the steps. -/
def isMatch (rule : PatternRule) : Nat → List Bytes → List Bytes → Bool
  | 0, _, _ => false
  | _, [], text => text.isEmpty
  | fuel + 1, item :: pattern, text =>
    if item = rule.many then
      isMatch rule fuel pattern text ||
        match text with
        | [] => false
        | _ :: rest => isMatch rule fuel (item :: pattern) rest
    else if rule.escape = some item then
      match pattern, text with
      | literal :: pattern, character :: text =>
        sameCharacter rule literal character && isMatch rule fuel pattern text
      | _, _ => false
    else
      match text with
      | [] => false
      | character :: text =>
        if rule.hasSets ∧ item = [0x5B] then
          match accepts character pattern with
          | some (isAccepted, pattern) => isAccepted && isMatch rule fuel pattern text
          | none => false
        else if item = rule.one then isMatch rule fuel pattern text
        else sameCharacter rule item character && isMatch rule fuel pattern text

def matchesPattern (rule : PatternRule) (pattern text : Bytes) : Bool :=
  let pattern := characters pattern
  let text := characters text
  isMatch rule (pattern.length + text.length + 1) pattern text

/-! ## Quotes -/

/-- A text with each quote in it doubled. -/
def doubled (quote : UInt8) (text : Bytes) : Bytes :=
  text.flatMap fun byte => if byte = quote then [quote, quote] else [byte]

def quoted (quote : UInt8) (text : Bytes) : Bytes := quote :: doubled quote text ++ [quote]

def hexadecimal (content : Bytes) : Bytes := (Bytes.ofText (Hex.encode content)).map Byte.upper

/-- The bytes that hexadecimal digits write, with characters of a set between them. -/
def unhexOf (ignored : List Bytes) : List Bytes → Option Bytes
  | [] => some []
  | [item] => if ignored.contains item then some [] else none
  | high :: low :: rest =>
    let digit? : Bytes → Option Nat
      | [byte] => Hex.value? (Char.ofNat byte.toNat)
      | _ => none
    match digit? high, digit? low with
    | some h, some l => (unhexOf ignored rest).map (UInt8.ofNat (h * 16 + l) :: ·)
    | none, _ => if ignored.contains high then unhexOf ignored (low :: rest) else none
    | _, none => none

end TextFunction

end ImageAudit.Sql
