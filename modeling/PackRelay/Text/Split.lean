/-! Text parted at marks. -/
namespace PackRelay

/-- The parts between marks: one more than there are marks, some of them perhaps empty. -/
def splitAt (isMark : Char → Bool) : List Char → List (List Char)
  | [] => [[]]
  | c :: rest =>
    if isMark c then [] :: splitAt isMark rest
    else match splitAt isMark rest with
      | part :: parts => (c :: part) :: parts
      | [] => [[c]]

end PackRelay
