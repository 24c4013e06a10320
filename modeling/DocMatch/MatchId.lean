import DocMatch.Json.Reader

/-!
Identifiers of single calls of a matcher. A new one is written as thirty-two hexadecimal digits in
five groups, of which the first twelve count the milliseconds since the epoch, so identifiers sort
by the time they were made; the rest is random but for the two marks of this layout.
-/

namespace DocMatch

structure MatchId where
  text : String
  deriving DecidableEq, Repr

namespace MatchId

def hexChars (width n : Nat) : List Char :=
  let digits := Nat.toDigits 16 n
  List.replicate (width - digits.length) '0' ++ digits

/-- The identifier of a time in milliseconds and 74 random bits. -/
def ofTime (millis random : Nat) : MatchId :=
  let time := hexChars 12 (millis % (1 <<< 48))
  let early := hexChars 3 (random % (1 <<< 12))
  let late := hexChars 16 ((1 <<< 63) + (random >>> 12) % (1 <<< 62))
  ⟨String.ofList (time.take 8 ++ '-' :: time.drop 8 ++ '-' :: '7' :: early
    ++ '-' :: late.take 4 ++ '-' :: late.drop 4)⟩

def version (id : MatchId) : String := String.ofList ((id.text.toList.drop 14).take 1)

def toDocument (id : MatchId) : Bytes := Json.writeString id.text

def ofDocument (document : Bytes) : Except Json.Fault MatchId :=
  (Json.readDocument Json.readText document).map MatchId.mk

end MatchId

end DocMatch
