/-!
# Cutting and joining texts

Lists are written in one text with a separator between their entries. Cutting at a separator keeps
empty entries, so that `String.intercalate` with the same separator gives the text back.
-/

namespace BugReport.Text

/-- The entries between the occurrences of a character. There is always at least one. -/
def parts (sep : Char) (s : String) : List String :=
  (s.toList.splitOn sep).map String.ofList

/-- Cuts a list at the first occurrence of an element, which belongs to neither side. -/
def cutList {α : Type} [BEq α] (sep : α) : List α → Option (List α × List α)
  | [] => none
  | c :: cs => if c == sep then some ([], cs) else (cutList sep cs).map fun (a, b) => (c :: a, b)

/-- Cuts a text at the first occurrence of a character. -/
def cut (sep : Char) (s : String) : Option (String × String) :=
  (cutList sep s.toList).map fun (a, b) => (String.ofList a, String.ofList b)

/-- Cuts a list at the first occurrence of a non-empty sequence. -/
def cutSeqList (sep : List Char) : List Char → Option (List Char × List Char)
  | [] => none
  | c :: cs =>
    if sep.isPrefixOf (c :: cs) then some ([], (c :: cs).drop sep.length)
    else (cutSeqList sep cs).map fun (a, b) => (c :: a, b)

/-- Cuts a text at the first occurrence of a non-empty text. -/
def cutSeq (sep : String) (s : String) : Option (String × String) :=
  (cutSeqList sep.toList s.toList).map fun (a, b) => (String.ofList a, String.ofList b)

/-- The entries between the occurrences of a sequence, taken from the left. The first argument
counts the characters of an occurrence that are still to be skipped. -/
def partsSeqList (sep : List Char) : Nat → List Char → List (List Char)
  | _, [] => [[]]
  | skip + 1, _ :: cs => partsSeqList sep skip cs
  | 0, c :: cs =>
    if sep.isPrefixOf (c :: cs) then [] :: partsSeqList sep (sep.length - 1) cs
    else (partsSeqList sep 0 cs).modifyHead (c :: ·)

/-- The entries between the occurrences of a non-empty text. -/
def partsSeq (sep : String) (s : String) : List String :=
  (partsSeqList sep.toList 0 s.toList).map String.ofList

/-- Replaces every occurrence of a character by a text. -/
def substitute (c : Char) (replacement : String) (s : String) : String :=
  String.ofList (s.toList.flatMap fun d => if d == c then replacement.toList else [d])

/-- Takes one given character off the start of a list. -/
def takeChar? (c : Char) : List Char → Option (List Char)
  | d :: cs => if d == c then some cs else none
  | [] => none

/-- Whether a text starts with another one. -/
def startsWith (start s : String) : Bool :=
  start.toList.isPrefixOf s.toList

/-- The text before a last character, if it has that character at its end. -/
def dropLastChar? (c : Char) (s : String) : Option String :=
  if s.toList.getLast? == some c then some (String.ofList s.toList.dropLast) else none

/-- Whether a character occurs in a text. -/
def has (c : Char) (s : String) : Bool :=
  s.toList.contains c

/-- The number of characters of a text. -/
def width (s : String) : Nat :=
  s.toList.length

/-- Fills a text up with blanks on the right. A text that is already as wide stays as it is. -/
def padRight (w : Nat) (s : String) : String :=
  String.ofList (s.toList ++ List.replicate (w - s.toList.length) ' ')

/-- A text written `n` times. -/
def repeated (n : Nat) (s : String) : String :=
  String.join (List.replicate n s)

theorem cutList_eq_some {α : Type} [BEq α] [LawfulBEq α] {sep : α} {cs a b : List α}
    (h : cutList sep cs = some (a, b)) : cs = a ++ sep :: b := by
  induction cs generalizing a b with
  | nil => simp [cutList] at h
  | cons c cs ih =>
    simp only [cutList] at h
    split at h
    · next hc =>
      simp only [Option.some.injEq, Prod.mk.injEq] at h
      obtain ⟨rfl, rfl⟩ := h
      simp [eq_of_beq hc]
    · simp only [Option.map_eq_some_iff, Prod.mk.injEq] at h
      obtain ⟨⟨x, y⟩, hxy, rfl, rfl⟩ := h
      simp [ih hxy]

end BugReport.Text
