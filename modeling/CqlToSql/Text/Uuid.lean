/-
  CqlToSql.Text.Uuid
  ──────────────────
  UUIDs in their canonical text form: five groups of 8, 4, 4, 4 and 12
  hexadecimal digits with hyphens between them.  A prefix of the text form
  stands for a range of UUIDs, whose ends are got by padding the prefix with
  the lowest and with the highest UUID.
-/
import CqlToSql.Text.CodePoint
import CqlToSql.Text.Split

namespace CqlToSql.Text

/-- Is an ASCII hexadecimal digit of either case. -/
def isHexDigit (c : Char) : Bool :=
  inRanges [(0x30, 0x39), (0x41, 0x46), (0x61, 0x66)] c

/-- The lengths of the groups of a UUID. -/
def uuidGroups : List Nat := [8, 4, 4, 4, 12]

/-- Has the shape of a UUID. -/
def isUuid (s : String) : Bool :=
  let groups := splitChars '-' s.toList
  groups.map List.length == uuidGroups && groups.all (·.all isHexDigit)

/-- The UUID with every digit equal to `digit`. -/
def uniformUuid (digit : Char) : String :=
  joinWith "-" (uuidGroups.map fun n => String.ofList (List.replicate n digit))

/-- The least UUID. -/
def lowestUuid : String := uniformUuid '0'

/-- The greatest UUID. -/
def highestUuid : String := uniformUuid 'f'

/-- `start` completed with the end of `bound`, which takes over at the byte
where `start` ends; `start` itself when it is the longer one. -/
def padWith (bound start : String) : String :=
  start ++ String.ofList (bound.toList.drop (byteLength start.toList))

/-- The least and the greatest UUID that start with `start`.  Neither is a
UUID when `start` is not the beginning of one. -/
def uuidRange (start : String) : String × String :=
  (padWith lowestUuid start, padWith highestUuid start)

end CqlToSql.Text
