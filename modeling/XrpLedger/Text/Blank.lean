/-!
# Blank characters

- `isBlank`: whether a character is white space, in all of Unicode.
- `splitBlanks`: the words of a text.
-/

namespace XrpLedger.Text

/-- The characters with the property of white space. -/
def isBlank (c : Char) : Bool :=
  let n := c.toNat
  (9 ≤ n && n ≤ 13) || n == 0x20 || n == 0x85 || n == 0xA0 || n == 0x1680 ||
    (0x2000 ≤ n && n ≤ 0x200A) || n == 0x2028 || n == 0x2029 || n == 0x202F ||
    n == 0x205F || n == 0x3000

/-- The words of a character list behind a word that has been begun. -/
def splitBlanksAfter (word : List Char) : List Char → List (List Char)
  | [] => if word = [] then [] else [word.reverse]
  | c :: cs =>
    if isBlank c then
      if word = [] then splitBlanksAfter [] cs else word.reverse :: splitBlanksAfter [] cs
    else splitBlanksAfter (c :: word) cs

/-- Characters that are not blank go on with the word. -/
theorem splitBlanksAfter_append {cs : List Char} (hcs : ∀ c ∈ cs, isBlank c = false)
    (word rest : List Char) :
    splitBlanksAfter word (cs ++ rest) = splitBlanksAfter (cs.reverse ++ word) rest := by
  induction cs generalizing word with
  | nil => rfl
  | cons c cs ih =>
    have hc : isBlank c = false := hcs c List.mem_cons_self
    rw [List.cons_append, splitBlanksAfter, hc, if_neg Bool.false_ne_true,
      ih (fun d hd => hcs d (List.mem_cons_of_mem c hd)), List.reverse_cons,
      List.append_assoc]
    rfl

/-- The longest runs of characters that are not blank. -/
def splitBlanks (text : String) : List String :=
  (splitBlanksAfter [] text.toList).map String.ofList

end XrpLedger.Text
