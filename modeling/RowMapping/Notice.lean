import RowMapping.Text.Escaped
/-!
# Notices

What a run leaves out or settles on its own, in the order in which it meets it.

* `Notice`: the causes;
* `Notice.level`, `Notice.message`: how they are shown.
-/

namespace RowMapping

open Text

/-- Whom a notice concerns: everyone, or only a reader who asks for details. -/
inductive Level
  | warn
  | debug
  deriving DecidableEq, Repr

/-- The name of a level. -/
def Level.name : Level → String
  | .warn => "WARN"
  | .debug => "DEBUG"

/-- Something left out or settled. -/
inductive Notice
  /-- A page size that is no 16-bit number, in a list of page sizes. -/
  | malformedTier (tier tiers : String)
  /-- A fragment of a list of enum pairs that has no two parts. -/
  | malformedPair (fragment : String)
  /-- An operator that no filter knows. -/
  | unknownOperator (op field : String)
  /-- An annotation while the class of an earlier one is sought. -/
  | strayTagLine (line : Nat)
  /-- A public statement that declares no data member. -/
  | notAMember (line : Nat)
  /-- An annotation block that no class follows. -/
  | danglingBlock
  /-- The number of annotated classes in a header. -/
  | classCount (file : String) (count : Nat)
  /-- A word of a block that means nothing. -/
  | ignoredTag (className word : String)
  /-- A table whose name is derived from the class. -/
  | derivedTable (className table : String)
  /-- A member tagged both as JSON and as an enum. -/
  | jsonOverEnum (className field : String)
  /-- An enum mapping in a block for a member that is not there. -/
  | unknownEnumField (className field : String)
  /-- An enum mapping in a block for a member that has its own. -/
  | inlinePairsWin (className field : String)
  /-- An entity with no column to update. -/
  | nothingToUpdate (className : String)
  deriving DecidableEq, Repr

namespace Notice

/-- Only what changes the meaning of a declaration concerns everyone. -/
def level : Notice → Level
  | malformedTier .. | derivedTable .. | jsonOverEnum .. => .warn
  | _ => .debug

/-- The text of a notice. -/
def message : Notice → String
  | malformedTier tier tiers =>
    "ignoring malformed limit tier " ++ escaped tier ++ " in limits=" ++ tiers
  | malformedPair fragment => "dropping malformed enum fragment " ++ escaped fragment
  | unknownOperator op field =>
    "unknown filter operator " ++ escaped op ++ " on " ++ field ++ ", using eq"
  | strayTagLine line =>
    "line " ++ toString line ++ ": annotation ignored while looking for a declaration"
  | notAMember line => "line " ++ toString line ++ ": not a data member, skipped"
  | danglingBlock => "discarding annotation block with no following declaration"
  | classCount file count => file ++ ": " ++ toString count ++ " annotated classes"
  | ignoredTag className word => className ++ ": ignoring class token " ++ escaped word
  | derivedTable className table =>
    "No table= annotation for " ++ className ++ ", using derived name '" ++ table ++ "'"
  | jsonOverEnum className field =>
    className ++ "::" ++ field ++ " is tagged both json_field and enum; treating it as JSON"
  | unknownEnumField className field =>
    className ++ ": enum= names unknown field " ++ escaped field
  | inlinePairsWin className field =>
    className ++ "::" ++ field ++ ": inline enum pairs take precedence"
  | nothingToUpdate className => className ++ ": no updatable columns, skipping UPDATE"

end Notice

end RowMapping
