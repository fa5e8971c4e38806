/-!
# File paths

A path is written as parts with slashes between them.

**Parts.**  Empty parts and single points mean nothing: `a//./b` is `a/b`.  Two points lead upwards.
A path that ends in such an empty part or in a single point can only be a directory.

**Extension.**  The extension of a path is what follows the last point of its last part; a part that
begins with its only point has none.
-/

namespace RpcGateway
namespace FilePath

def written (path : String) : List (List Char) :=
  path.toList.splitOn '/'

/-- Whether a part means something. -/
def means (part : List Char) : Bool :=
  !(part.isEmpty || part == ['.'])

/-- The parts of a path that mean something. -/
def parts (path : String) : List (List Char) :=
  (written path).filter means

def canBeFile (path : String) : Bool :=
  ((written path).getLast?.map means).getD false

/-- A path without the parts that mean nothing. -/
def normal (path : String) : String :=
  let root := if path.toList.head? = some '/' then ['/'] else []
  String.ofList (root ++ ['/'].intercalate (parts path))

/-- The last part of a path, unless it leads upwards. -/
def name? (path : String) : Option (List Char) :=
  (parts path).getLast?.filter (· != ['.', '.'])

def extensionOf (name : List Char) : Option (List Char) :=
  let extension := (name.reverse.takeWhile (· != '.')).reverse
  if name.length ≤ extension.length + 1 then none else some extension

def extension? (path : String) : Option String :=
  ((name? path).bind extensionOf).map String.ofList

end FilePath
end RpcGateway
