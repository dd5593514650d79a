
namespace ModelSchema

/-- The version of an installed package; without one the version is not known. -/
def version (installed : Bool) : String := if installed then "0.1.0" else "0.0.0+unknown"

end ModelSchema
