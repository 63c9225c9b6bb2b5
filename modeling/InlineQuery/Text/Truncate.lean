namespace InlineQuery.Text

/-- Cuts a text that is longer than `limit`, the three dots at its end included. Below three the
cut is counted from the end of the text. -/
def truncate (s : String) (limit : Int) : String :=
  let cs := s.toList
  if (cs.length : Int) ≤ limit then s
  else
    let kept := if 3 ≤ limit then (limit - 3).toNat else cs.length - (3 - limit).toNat
    String.ofList (cs.take kept ++ ['.', '.', '.'])

end InlineQuery.Text
