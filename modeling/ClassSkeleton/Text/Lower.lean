import ClassSkeleton.Text.Upper

/-!
Lower case, letter by letter. It undoes upper case for the letters that are the lower case of their
upper case of one character, and leaves all other characters as they are.
-/
namespace ClassSkeleton.Text

/-- Is the letter the upper case of one that the run covers? -/
def CaseRun.reaches (run : CaseRun) (code : Nat) : Bool := run.covers (code + run.down - run.up)

def lowerChar (c : Char) : Char :=
  let code := c.toNat
  if code < 0x80 then c.toLower
  else
    match caseRuns.find? fun run => run.reaches code with
    | some run => Char.ofNat (code + run.down - run.up)
    | none => c

example : "ÀŸǄΩẞ".toList.map lowerChar = "àÿǆωẞ".toList := by decide +kernel

end ClassSkeleton.Text
