import DeliveryPipeline.Text.Blank

/-!
# Pieces of a text

Cutting a text at separators, reading a comma list, telling what stands behind a leading word, and
putting lines together.
-/
namespace DeliveryPipeline.Text

/-- The pieces between the separators that hold at least one character. -/
def words (separates : Char → Bool) (s : String) : List String :=
  ((s.toList.splitOnP separates).filter (!·.isEmpty)).map String.ofList

/-- The items of a comma list, trimmed, without the blank ones. -/
def commaList (s : String) : List String :=
  (((s.toList.splitOnP (· == ',')).map trimChars).filter (!·.isEmpty)).map String.ofList

/-- What follows the characters `lead`, when the characters of a text begin with them. -/
def afterPrefix? : List Char → List Char → Option (List Char)
  | [], cs => some cs
  | _ :: _, [] => none
  | l :: lead, c :: cs => if l = c then afterPrefix? lead cs else none

theorem afterPrefix?_eq_some_iff {lead cs tail : List Char} :
    afterPrefix? lead cs = some tail ↔ cs = lead ++ tail := by
  induction lead generalizing cs with
  | nil => simp [afterPrefix?, eq_comm]
  | cons l lead ih =>
    cases cs with
    | nil => simp [afterPrefix?]
    | cons c cs =>
      by_cases h : l = c
      · simp [afterPrefix?, h, ih]
      · simp [afterPrefix?, h, Ne.symm h]

/-- What follows the leading text `lead`, when `s` begins with it. -/
def after? (lead s : String) : Option String :=
  (afterPrefix? lead.toList s.toList).map String.ofList

/-- A text up to its first line break, which may be written with a carriage return. -/
def firstLine (s : String) : String :=
  let line := s.toList.takeWhile (· != '\n')
  let broken := s.toList.any (· == '\n')
  String.ofList (if broken && line.getLast? == some '\r' then line.dropLast else line)

/-- The text of some lines, each of which ends in a line break. -/
def unlines (lines : List String) : String :=
  String.join (lines.map (· ++ "\n"))

/-- Whether two texts agree when ASCII letters lose their case. -/
def sameIgnoringCase (s t : String) : Bool :=
  s.toLower == t.toLower

end DeliveryPipeline.Text
