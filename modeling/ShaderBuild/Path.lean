namespace ShaderBuild.Path

def separator : Char := '/'

/-- Cut at every separator; the result has one part more than there are separators. -/
def parts : List Char → List (List Char)
  | [] => [[]]
  | c :: r =>
    if c == separator then [] :: parts r
    else match parts r with
      | [] => [[c]]
      | p :: ps => (c :: p) :: ps

def joinParts (ps : List (List Char)) : List Char := [separator].intercalate ps

def isAbsoluteChars (cs : List Char) : Bool := cs.head? == some separator

def isAbsolute (path : String) : Bool := isAbsoluteChars path.toList

/-- The leading slash, or a leading `.` that is a part of its own, and what follows it. -/
def splitHead : List Char → List Char × List Char
  | '/' :: r => (['/'], r)
  | ['.'] => (['.'], [])
  | '.' :: '/' :: r => (['.'], '/' :: r)
  | cs => ([], cs)

def isVacuous (part : List Char) : Bool := part == [] || part == ['.']

def trimParts (ps : List (List Char)) : List (List Char) :=
  (ps.reverse.dropWhile isVacuous).reverse

def bodyParts (cs : List Char) : List (List Char) := trimParts (parts (splitHead cs).2)

def parentChars? (cs : List Char) : Option (List Char) :=
  let head := (splitHead cs).1
  match bodyParts cs with
  | [] => if head == ['.'] then some [] else none
  | ps => some (head ++ joinParts (trimParts ps.dropLast))

/-- Everything before the last part; the root and the empty path have no parent. -/
def parent? (path : String) : Option String := (parentChars? path.toList).map .ofList

def fileNameChars? (cs : List Char) : Option (List Char) :=
  (bodyParts cs).getLast?.filter (· != ['.', '.'])

def fileName? (path : String) : Option String := (fileNameChars? path.toList).map .ofList

/-- A file name cut at its last dot; a dot in front does not count. -/
def splitName (name : List Char) : List Char × Option (List Char) :=
  let tail := name.reverse.takeWhile (· != '.')
  let stem := (name.reverse.drop (tail.length + 1)).reverse
  if tail.length == name.length || stem == [] then (name, none) else (stem, some tail.reverse)

def stem? (path : String) : Option String :=
  (fileNameChars? path.toList).map fun n => .ofList (splitName n).1

def extensionChars? (cs : List Char) : Option (List Char) :=
  (fileNameChars? cs).bind fun n => (splitName n).2

def extension? (path : String) : Option String :=
  (extensionChars? path.toList).map .ofList

/-- End the stem with an extension; a path without a file name stays as it is. -/
def extendChars (cs extension : List Char) : List Char :=
  match fileNameChars? cs with
  | none => cs
  | some name =>
    let body := joinParts ((bodyParts cs).dropLast ++ [(splitName name).1])
    (splitHead cs).1 ++ body ++ '.' :: extension

/-- Put an extension in place of the old one. The old one goes first, without its dot, so a name
that turns into `..` by that gets no extension. -/
def withExtension (path extension : String) : String :=
  let cs := path.toList
  let bare := match extensionChars? cs with
    | none => cs
    | some old => cs.take (cs.length - old.length)
  .ofList (extendChars bare extension.toList)

def joinChars (base rest : List Char) : List Char :=
  if isAbsoluteChars rest then rest
  else match base.getLast? with
    | none => rest
    | some c => if c == separator then base ++ rest else base ++ separator :: rest

/-- `rest` seen from `base`; an absolute `rest` stands alone. -/
def join (base rest : String) : String := .ofList (joinChars base.toList rest.toList)

def withFileName (path name : String) : String :=
  match fileName? path with
  | none => join path name
  | some _ => join ((parent? path).getD "") name

end ShaderBuild.Path
