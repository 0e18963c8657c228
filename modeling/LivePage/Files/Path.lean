import LivePage.Text.Basic

/-!
Paths of files, written with slashes. Slashes and single dots that change nothing are passed over.
-/

namespace LivePage.Path

def isAbsolute (path : Text) : Bool := Text.startsWith path "/"

/-- The steps of a path; empty ones and single dots lead nowhere. -/
def steps (path : Text) : List Text :=
  (Text.split (· = '/') path).filter fun s => !s.isEmpty && s ≠ ['.']

def saysDirectory (path : Text) : Bool := Text.endsWith path "/" || Text.endsWith path "/."

/-- A path, written from its end, without what changes nothing at its end. -/
def trimReversed : Text → Text
  | '/' :: c :: s => trimReversed (c :: s)
  | '.' :: '/' :: c :: s => trimReversed (c :: s)
  | ['.', '/'] => ['/']
  | s => s

def trimEnd (path : Text) : Text := (trimReversed path.reverse).reverse

/-- The path without its last step; the root and the empty path have no parent. -/
def parent? (path : Text) : Option Text :=
  let path := trimEnd path
  if path.isEmpty || path = ['/'] then none
  else some (trimEnd (path.reverse.dropWhile (· ≠ '/')).reverse)

def fileName? (path : Text) : Option Text :=
  let path := trimEnd path
  let name := (path.reverse.takeWhile (· ≠ '/')).reverse
  if name.isEmpty || name = ['.'] || name = ['.', '.'] then none else some name

/-- What follows the last dot of the file name, unless that is its first character. -/
def extension? (path : Text) : Option Text :=
  (fileName? path).bind fun name =>
    let tail := name.reverse.takeWhile (· ≠ '.')
    if name.length ≤ tail.length + 1 then none else some tail.reverse

def join (directory path : Text) : Text :=
  if isAbsolute path || directory.isEmpty then path
  else if Text.endsWith directory "/" then directory ++ path
  else directory ++ '/' :: path

end LivePage.Path
