/-!
# The command reference
-/

set_option autoImplicit false

namespace QueryShape.CommandLine

/-- The lines of the reference up to the one that names the environment variable for the indent. -/
def referenceHead : List String :=
  ["shapeql — compile shape catalogs into GraphQL documents",
    "",
    "COMMANDS:",
    "  shapeql compile <FILE>                           Print the operation document",
    "    [--mutation] [--name NAME]                     Operation kind and name",
    "  shapeql variables <FILE>                         Variables: name, type, default, usage paths",
    "  shapeql fragments <FILE>                         Fragments: name and target type",
    "  shapeql usage                                    This reference",
    "",
    "CATALOGS (.json or .toml):",
    "  root = \"Query\"                                   Root shape name",
    "  namespace = \"main\"                               Prefix for shape identities",
    "  [[shapes.<Name>.fields]]                         name, tag, type, embedded, shape",
    "  type = \"[Item!]?\"                                Shape or scalar name; unknown names are scalars",
    "",
    "TAGS:",
    "  items(first: 10, after: $:String)                Field name and arguments",
    "  $id:ID! = \"1\"                                    Named, typed, defaulted variable",
    "  name,alias=other                                 Alias (output other:name)",
    "  inline                                           Splice nested fields into the parent",
    "  __typename,union                                 Union discriminator",
    "",
    "GLOBAL OPTIONS:",
    "  --format human|json   Force output format (auto-detected by default)",
    "  --indent <UNIT>       Indent unit, `\\t` for tabs",
    "  --verbose             Log compilation steps to stderr",
    "",
    "INDENT (in precedence order):",
    "  1. --indent flag",
    "  2. $SHAPEQL_INDENT env var"]

/-- The lines of the reference after the name of that variable. -/
def referenceTail : List String :=
  ["",
    "  3. two spaces",
    ""]

/-- The reference, with a hint about the value of the variable. -/
def reference (hint : String) : String :=
  "\n".intercalate referenceHead ++ hint ++ "\n".intercalate referenceTail

end QueryShape.CommandLine
