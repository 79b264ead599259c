import RowMapping.Text.Search
/-!
# Qualified names

A name is qualified when it holds the scope sign `::`.

* `Name.isQualified`, `Name.qualify`: a name as seen from outside of its namespace;
* `Name.bare`: the last segment of a name.
-/

namespace RowMapping.Name

/-- The sign between the segments of a qualified name. -/
def scopeSign : List Char := "::".toList

/-- The name holds a scope sign. -/
def isQualified (name : String) : Bool := Text.occursIn scopeSign name.toList

/-- The name inside the namespace `scope`, unless it is qualified already. -/
def qualify (scope name : String) : String :=
  if isQualified name || scope.isEmpty then name else scope ++ "::" ++ name

/-- The last segment of a name. -/
def bare (name : String) : String := String.ofList (Text.afterLast scopeSign name.toList)

theorem qualify_of_isQualified {scope name : String} (h : isQualified name = true) :
    qualify scope name = name := by
  simp [qualify, h]

@[simp] theorem qualify_empty (name : String) : qualify "" name = name := by
  simp [qualify]

end RowMapping.Name
