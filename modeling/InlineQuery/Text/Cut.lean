namespace InlineQuery.Text

/-- Cuts a text at every occurrence of a character. -/
def cut (sep : Char) : List Char → List (List Char)
  | [] => [[]]
  | c :: r =>
    if c == sep then [] :: cut sep r
    else match cut sep r with
      | [] => [[c]]
      | piece :: pieces => (c :: piece) :: pieces

end InlineQuery.Text
