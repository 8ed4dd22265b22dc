/-!
Cutting a text at a separator.
-/

namespace Contestant
namespace Text

/-- The parts between separators; there is one more part than there are separators. -/
def parts (separator : Char) : List Char → List (List Char)
  | [] => [[]]
  | c :: rest =>
    if c = separator then [] :: parts separator rest
    else
      match parts separator rest with
      | [] => [[c]]
      | first :: more => (c :: first) :: more

/-- What stands before the last separator and what behind it. -/
def splitLast (separator : Char) (text : List Char) : Option (List Char × List Char) :=
  let reversed := text.reverse
  match reversed.dropWhile (· ≠ separator) with
  | [] => none
  | _ :: before => some (before.reverse, (reversed.takeWhile (· ≠ separator)).reverse)

theorem parts_ne_nil (separator : Char) (text : List Char) : parts separator text ≠ [] := by
  fun_induction parts separator text <;> simp_all

theorem splitLast_append {separator : Char} {before after : List Char}
    (h : separator ∉ after) :
    splitLast separator (before ++ separator :: after) = some (before, after) := by
  have h' : ∀ c ∈ after.reverse, (!decide (c = separator)) = true := by
    intro c hc
    have : c ≠ separator := fun hcs => h (hcs ▸ by simpa using hc)
    simpa using this
  simp [splitLast, List.dropWhile_append_of_pos h', List.takeWhile_append_of_pos h']

end Text
end Contestant
