import ViewBinding.Eval

/-!
# Registry — the converters that an engine knows

Converters are registered under a name.  A name that is registered again keeps its place.  A type
name of the form `SomethingValueConverter` yields the name by convention: the words of `Something`
in lower case with hyphens in between.
-/

namespace ViewBinding

/-- The ending of the type names that follow the convention. -/
def conventionSuffix : String := "ValueConverter"

/-- The words of a type name in lower case: an upper-case letter starts a word. -/
def hyphenate : List Char → List Char
  | [] => []
  | c :: rest =>
    c.toLower :: rest.flatMap fun c => if c.isUpper then ['-', c.toLower] else [c]

/-- The converter name for a type name that follows the convention. -/
def conventionName? (typeName : String) : Option String :=
  if typeName.endsWith conventionSuffix then
    let stem := typeName.toList.take (typeName.length - conventionSuffix.length)
    if stem.isEmpty then none else some (String.ofList (hyphenate stem))
  else none

namespace World

variable {η : Type}

/-- Registers a converter. -/
def register (w : World η) (name : String) (converter : Converter) : World η :=
  { w with converters := Entries.put name converter w.converters }

/-- Registers a converter under the name that follows from a type name, and gives that name. -/
def registerByConvention (w : World η) (typeName : String) (converter : Converter) :
    Option String × World η :=
  match conventionName? typeName with
  | some name => (some name, w.register name converter)
  | none => (none, w)

/-- The names of the registered converters. -/
def converterNames (w : World η) : List String := Entries.keys w.converters

end World

end ViewBinding
