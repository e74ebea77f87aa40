/-!
Cutting a text at a separating character. There is one part more than there are separators, and the
parts joined by the separator are the text.
-/
namespace Runbook.Text

def parts (separator : Char) : List Char → List (List Char)
  | [] => [[]]
  | c :: cs =>
    if c = separator then [] :: parts separator cs
    else match parts separator cs with
      | [] => [[c]]
      | part :: rest => (c :: part) :: rest

/-- The text with a separator between each two parts. -/
def joined (separator : Char) : List (List Char) → List Char
  | [] => []
  | [part] => part
  | part :: rest => part ++ separator :: joined separator rest

theorem parts_ne_nil (separator : Char) (cs : List Char) : parts separator cs ≠ [] := by
  cases cs with
  | nil => simp [parts]
  | cons c cs =>
    simp only [parts]
    split
    · simp
    · split <;> simp

theorem joined_parts (separator : Char) (cs : List Char) :
    joined separator (parts separator cs) = cs := by
  induction cs with
  | nil => rfl
  | cons c cs ih =>
    have hne := parts_ne_nil separator cs
    simp only [parts]
    split
    · rename_i h
      match hp : parts separator cs with
      | [] => exact absurd hp hne
      | part :: rest => rw [hp] at ih; simp [joined, ih, h]
    · match hp : parts separator cs with
      | [] => exact absurd hp hne
      | [part] => rw [hp] at ih; simpa [joined] using ih
      | part :: next :: rest => rw [hp] at ih; simpa [joined] using ih

end Runbook.Text
