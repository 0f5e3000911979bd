/-!
Cutting a text at a character, at its first occurrence or at every one, and the
few edits that look at the ends of a text.
-/
namespace ClassChart.Text

/-- The pieces between the occurrences of `sep`, empty ones included, so there is
one piece more than there are occurrences. -/
def splitChars (sep : Char) : List Char → List (List Char)
  | [] => [[]]
  | c :: rest =>
      if c = sep then [] :: splitChars sep rest
      else
        match splitChars sep rest with
        | [] => [[c]]
        | piece :: more => (c :: piece) :: more

def split (sep : Char) (s : String) : List String :=
  (splitChars sep s.toList).map String.ofList

/-- The lines of a text.  A final line feed is followed by one empty line. -/
def lines (s : String) : List String :=
  split '\n' s

/-- What stands before the first occurrence of `sep`, or the whole text. -/
def upTo (sep : Char) (s : String) : String :=
  String.ofList (s.toList.takeWhile (· != sep))

/-- What stands after the first occurrence of `sep`, or nothing. -/
def beyond (sep : Char) (s : String) : String :=
  String.ofList ((s.toList.dropWhile (· != sep)).drop 1)

/-- What stands after the last occurrence of `sep`, or the whole text. -/
def afterLast (sep : Char) (s : String) : String :=
  String.ofList (s.toList.reverse.takeWhile (· != sep)).reverse

/-- What stands before the last occurrence of `sep`, or nothing. -/
def beforeLast (sep : Char) (s : String) : String :=
  String.ofList ((s.toList.reverse.dropWhile (· != sep)).drop 1).reverse

def dropFirst (n : Nat) (s : String) : String :=
  String.ofList (s.toList.drop n)

def dropLast (n : Nat) (s : String) : String :=
  String.ofList (s.toList.take (s.toList.length - n))

def beginsWith (lead s : String) : Bool :=
  lead.toList.isPrefixOf s.toList

def finishesWith (tail s : String) : Bool :=
  tail.toList.isSuffixOf s.toList

/-- Remove the first occurrence of `pattern`, if there is one. -/
def eraseFirstChars (pattern : List Char) : List Char → List Char
  | [] => []
  | c :: rest =>
      if pattern.isPrefixOf (c :: rest) then (c :: rest).drop pattern.length
      else c :: eraseFirstChars pattern rest

/-- The text without the first occurrence of `pattern`. -/
def eraseFirst (pattern s : String) : String :=
  String.ofList (eraseFirstChars pattern.toList s.toList)

/-- Write every line end as a line feed: a carriage return with the line feed
that may follow it becomes one. -/
def unifyNewlines : List Char → List Char
  | [] => []
  | '\r' :: '\n' :: rest => '\n' :: unifyNewlines rest
  | '\r' :: rest => '\n' :: unifyNewlines rest
  | c :: rest => c :: unifyNewlines rest

/-- The number of lines of a text.  A last line that no line feed ends counts. -/
def lineCount (s : String) : Nat :=
  s.toList.count '\n' +
    if s.toList.isEmpty || s.toList.getLast? == some '\n' then 0 else 1

example : lines "a\n\nb\n" = ["a", "", "b", ""] := by decide +kernel

example : beforeLast '.' "a.b.C" = "a.b" ∧ afterLast '.' "a.b.C" = "C" := by
  decide +kernel

end ClassChart.Text
