/-! # Text taken literally in a pattern

A backslash before each character that a pattern language could read as anything but itself. -/
namespace GridQuery.Text

/-- Characters with a meaning of their own in patterns, white space included. -/
def metacharacters : List Char := [
  '(', ')', '[', ']', '{', '}', '?', '*', '+', '-', '|', '^', '$', '\\', '.', '&', '~', '#', ' ',
  '\t', '\n', '\r', '\x0b', '\x0c']

def escapeChar (c : Char) : List Char :=
  if metacharacters.contains c then ['\\', c] else [c]

/-- The pattern that matches exactly the given text. -/
def escape (s : List Char) : List Char := s.flatMap escapeChar

@[simp] theorem escape_nil : escape [] = [] := rfl

@[simp] theorem escape_cons (c : Char) (s : List Char) : escape (c :: s) = escapeChar c ++ escape s := rfl

@[simp] theorem escape_append (s t : List Char) : escape (s ++ t) = escape s ++ escape t := by
  simp [escape]

end GridQuery.Text
