import Mathlib.Data.List.Basic

namespace Pexec

/-- The pieces that repeated `std::getline` calls read, with the piece being read. -/
def splitFrom (delim : Char) : List Char → List Char → List (List Char)
  | item, [] => if item.isEmpty then [] else [item]
  | item, c :: rest =>
    if c = delim then item :: splitFrom delim [] rest else splitFrom delim (item ++ [c]) rest

def split (s : List Char) (delim : Char) : List (List Char) := splitFrom delim [] s

/-- The unquoted pieces are split again at spaces, the quoted ones are taken whole. -/
def pieces : Nat → List (List Char) → List (List Char)
  | _, [] => []
  | i, sub :: subs =>
    let items := if i % 2 = 0 then split sub ' ' else [sub]
    items.filter (fun item => !item.isEmpty) ++ pieces (i + 1) subs

/-- One turn of the loop that joins a piece to a predecessor ending in a backslash. -/
def mergeStep (acc : List (List Char) × List Char) (now : List Char) :
    List (List Char) × List Char :=
  let (out, prev) := acc
  if prev.isEmpty then (out, prev)
  else if prev.getLast? = some '\\' then (out, prev.dropLast ++ ' ' :: now)
  else (out ++ [prev], now)

def str2arg (ss : List Char) : List (List Char) :=
  if ss.isEmpty then []
  else match pieces 0 (split ss '"') with
    | [] => []
    | first :: rest =>
      let (out, prev) := rest.foldl mergeStep ([], first)
      out ++ [prev]

/-- The argument pointers for `execvp`, closed by a null pointer. -/
def arg2argc (args : List (List Char)) : List (Option (List Char)) := args.map some ++ [none]

example : str2arg "cp \"./file with spaces.txt\" ./output.txt".toList =
    ["cp".toList, "./file with spaces.txt".toList, "./output.txt".toList] := by decide

end Pexec
