import DisplayNames.Graph.Basic

/-!
# Nice names

Well-known declarations have a curated short spelling: `System.Int32` is displayed as `int`.  The
table is keyed by qualified names.

## Main definitions

* `DisplayNames.NiceNames` — the table.
* `DisplayNames.NiceNames.default` — the keywords of the predefined types.
* `DisplayNames.NiceNames.find?` — the nice name of a symbol.
-/

set_option relaxedAutoImplicit false
set_option autoImplicit false

namespace DisplayNames

/-- Short spellings by qualified name. -/
abbrev NiceNames := Table String String

namespace NiceNames

/-- The keywords of the predefined types. -/
def default : NiceNames :=
  [("System.Boolean", "bool"), ("System.Byte", "byte"), ("System.SByte", "sbyte"),
    ("System.Char", "char"), ("System.Decimal", "decimal"), ("System.Double", "double"),
    ("System.Single", "float"), ("System.Int16", "short"), ("System.UInt16", "ushort"),
    ("System.Int32", "int"), ("System.UInt32", "uint"), ("System.Int64", "long"),
    ("System.UInt64", "ulong"), ("System.Object", "object"), ("System.String", "string")]

/-- The nice name of a symbol. -/
def find? (names : NiceNames) (g : Graph) (id : SymId) : Option String :=
  Table.get? names (g.qualifiedName id)

end NiceNames

end DisplayNames
