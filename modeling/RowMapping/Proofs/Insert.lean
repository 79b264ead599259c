import RowMapping.Proofs.Bindings
import RowMapping.Proofs.ParamsBody
/-!
# Insertion

A new row is inserted by a statement and a function that are generated apart: the statement names
the columns, and the function binds the values.  Both go over the members that the database does not
fill in, in the order of declaration, so the value with number `i` is that of the column with number
`i`.

* `managedReason?`: why a member is not inserted;
* `insertParams_eq`, `run_code_insertBody`: the text of the function, and what it binds;
* `insert_aligned`: the text of the statement, and the text and the parameters of the function.
-/

namespace RowMapping

open Mapping Sql

/-- Why an insertion passes over a member: the database fills it in. -/
def managedReason? (m : Member) : Option String :=
  if m.tags.has .dbManaged then some "db_managed" else none

theorem isNone_managedReason? (m : Member) :
    (managedReason? m).isNone = !m.tags.has .dbManaged := by
  unfold managedReason?
  cases m.tags.has .dbManaged <;> rfl

namespace Entity

variable {e : Entity} {m : Member}

theorem insertSkip?_eq (hd : e.HasDistinctNames) (hm : m ∈ e.members) :
    e.insertSkip? m = managedReason? m := by
  rw [insertSkip?, managedReason?, isDbManaged_name hd hm]

theorem givenMembers_eq (e : Entity) :
    e.givenMembers = e.members.filter fun m => (managedReason? m).isNone :=
  List.filter_congr fun m _ => (isNone_managedReason? m).symm

/-- The text of the insertion. -/
theorem render_statements_insert (hd : e.HasDistinctNames) :
    e.statements.insert.render =
      "INSERT INTO " ++ e.table ++ " (" ++ commaList (e.givenMembers.map Member.column) ++
        ") VALUES (" ++ commaList ((List.range' 1 e.givenMembers.length).map placeholder) ++
        ") RETURNING " ++ commaList (e.members.map Member.column) := by
  have hinsert : e.statements.insert = .insert e.table
      (bindFrom 1 (e.givenMembers.map Member.column)) (e.members.map Member.column) := by
    rw [← insertMembers_eq hd, ← columnNames_eq]
    rfl
  rw [hinsert, render_insert, map_column_bindFrom, map_placeholder_bindFrom, List.length_map]

/-- The text of the function that binds the values of a new row. -/
theorem insertParams_eq (hd : e.HasDistinctNames) :
    insertParams e =
      ["    template<typename Entity>",
        s!"    static {paramsType} toInsertParams(const Entity& e) \x7b"] ++
      (if ∀ m ∈ e.givenMembers, e.isConverted m = false then
        s!"        return {paramsType}::make(" :: argumentLines managedReason? e.members ++
          ["        );"]
      else
        s!"        {paramsType} p;" :: pushLines e managedReason? e.members ++
          ["        return p;"]) ++
      ["    \x7d"] := by
  rw [insertParams, paramsFunction, insertBody, insertMembers_eq hd,
    lines_paramsBody hd (fun m hm => insertSkip?_eq hd hm) e.givenMembers_eq]
  rfl

section Run

variable {V : Type} [DecidableEq V] (v : Values V)

/-- The function binds the parameters of the members that the database does not fill in. -/
theorem run_code_insertBody (hd : e.HasDistinctNames) :
    e.insertBody.code.run v = some (e.givenMembers.filterMap (e.parameter? v)) := by
  rw [insertBody, insertMembers_eq hd]
  exact run_code_paramsBody v hd (fun m hm => insertSkip?_eq hd hm) e.givenMembers_eq

/-- **The values of a new row are bound in the order of its columns.**  The statement names the
columns of the members that the database does not fill in and numbers them from one; the function
has an argument or a block of code for the same members in the same order, and a comment in the
place of every other member.  It is a single call when none of them is converted, where a comma
stands behind every argument but the last, and else binds one after the other.  The code of a member
binds the parameter of this member, whatever has been bound before, and none only for an enumerator
without a text.  So what the whole function binds are the parameters of these members in order, and
the members themselves in a single call. -/
theorem insert_aligned (hd : e.HasDistinctNames) :
    e.statements.insert.render =
        "INSERT INTO " ++ e.table ++ " (" ++ commaList (e.givenMembers.map Member.column) ++
          ") VALUES (" ++ commaList ((List.range' 1 e.givenMembers.length).map placeholder) ++
          ") RETURNING " ++ commaList (e.members.map Member.column) ∧
      insertParams e =
        ["    template<typename Entity>",
          s!"    static {paramsType} toInsertParams(const Entity& e) \x7b"] ++
        (if ∀ m ∈ e.givenMembers, e.isConverted m = false then
          s!"        return {paramsType}::make(" :: argumentLines managedReason? e.members ++
            ["        );"]
        else
          s!"        {paramsType} p;" :: pushLines e managedReason? e.members ++
            ["        return p;"]) ++
        ["    \x7d"] ∧
      (∀ m ∈ e.givenMembers,
        (∀ s : Frame, ∃ buffer, (e.writeStep m).code.run v s =
          some ⟨buffer, s.bound ++ (e.parameter? v m).toList⟩) ∧
        (e.parameter? v m = none ↔ e.IsUnmapped v m)) ∧
      insertParams e =
        ["    template<typename Entity>",
          s!"    static {paramsType} toInsertParams(const Entity& e) \x7b"] ++
        e.insertBody.code.lines ++ ["    \x7d"] ∧
      e.insertBody.code.run v = some (e.givenMembers.filterMap (e.parameter? v)) ∧
      ((∀ m ∈ e.givenMembers, e.isConverted m = false) →
        e.insertBody.code.run v = some (e.givenMembers.map fun m => .value m.name)) := by
  have hrun := run_code_insertBody v hd
  have hgiven : e.givenMembers ⊆ e.members := List.filter_sublist.subset
  refine ⟨render_statements_insert hd, insertParams_eq hd, fun m _ =>
    ⟨run_code_writeStep v e m, e.parameter?_eq_none_iff v m⟩, paramsFunction_eq_code _ _, hrun,
    fun hplain => ?_⟩
  rw [hrun, filterMap_parameter?_of_plain v hd hgiven hplain]

end Run

/-- Articles: the database numbers them and notes when they were written. -/
def article : Entity where
  className := "Article"
  scope := "blog"
  table := "articles"
  model := none
  members := [
    ⟨"id", "int64_t", "0", 4, { flags := [.primaryKey, .dbManaged] }⟩,
    ⟨"title", "std::string", "", 5, {}⟩,
    ⟨"body", "std::string", "", 6, { column := some "content" }⟩,
    ⟨"created_at", "std::string", "", 7, { flags := [.dbManaged, .timestamp] }⟩]
  enums := []
  readOnly := false
  tiers := []
  entityName := "blog::Article"
  hasStructMeta := false
  file := "Article.h"
  line := 3

/-- Invoices: their members are bound in all ways that there are. -/
def invoice : Entity where
  className := "Invoice"
  scope := "app"
  table := "invoices"
  model := none
  members := [
    ⟨"id", "int64_t", "", 4, { flags := [.primaryKey, .dbManaged] }⟩,
    ⟨"number", "std::string", "", 5, { column := some "no" }⟩,
    ⟨"totals", "Totals", "", 6, { flags := [.jsonField] }⟩,
    ⟨"notes", "std::optional<Notes>", "", 7, { flags := [.jsonField] }⟩,
    ⟨"made", "std::string", "", 8, { flags := [.dbManaged] }⟩,
    ⟨"extra", "glz::raw_json", "", 9, {}⟩,
    ⟨"state", "State", "", 10, { pairs := [⟨"open", "Open"⟩, ⟨"paid", "Paid"⟩] }⟩,
    ⟨"channel", "std::optional<Channel>", "", 11, { pairs := [⟨"mail", "Mail"⟩] }⟩]
  enums := [
    { field := "state", type := "State", pairs := [⟨"open", "Open"⟩, ⟨"paid", "Paid"⟩]
      hasMeta := false },
    { field := "channel", type := "Channel", pairs := [⟨"mail", "Mail"⟩], hasMeta := false }]
  readOnly := false
  tiers := []
  entityName := "app::Invoice"
  hasStructMeta := false
  file := "Invoice.h"
  line := 3

/-- An object without notes that is paid and sent by mail. -/
def paidByMail : Values String where
  isPresent name := name ≠ "notes"
  enumerator name := if name = "state" then "Paid" else "Mail"
  constant _ name := name

/-- The comments before and after the arguments of a call leave its commas in place, and in the
other form each member has its own block. -/
theorem insert_aligned_article :
    (article.HasDistinctNames ∧
      article.statements.insert.render =
        "INSERT INTO articles (title, content) VALUES ($1, $2) " ++
          "RETURNING id, title, content, created_at" ∧
      insertParams article = [
        "    template<typename Entity>",
        "    static jcailloux::relais::io::PgParams toInsertParams(const Entity& e) \x7b",
        "        return jcailloux::relais::io::PgParams::make(",
        "            // id: skipped (db_managed)",
        "            e.title,",
        "            e.body",
        "            // created_at: skipped (db_managed)",
        "        );",
        "    \x7d"] ∧
      article.insertBody.code.run paidByMail = some [.value "title", .value "body"]) ∧
    invoice.HasDistinctNames ∧
      invoice.statements.insert.render =
        "INSERT INTO invoices (no, totals, notes, extra, state, channel) " ++
          "VALUES ($1, $2, $3, $4, $5, $6) " ++
          "RETURNING id, no, totals, notes, made, extra, state, channel" ∧
      insertParams invoice = [
        "    template<typename Entity>",
        "    static jcailloux::relais::io::PgParams toInsertParams(const Entity& e) \x7b",
        "        jcailloux::relais::io::PgParams p;",
        "        // id: skipped (db_managed)",
        "        p.push(e.number);",
        "        \x7b std::string json; glz::write_json(e.totals, json); p.push(json); \x7d",
        "        if (e.notes) \x7b",
        "            std::string json;",
        "            glz::write_json(*e.notes, json);",
        "            p.push(json);",
        "        \x7d else \x7b",
        "            p.pushNull();",
        "        \x7d",
        "        // made: skipped (db_managed)",
        "        p.push(e.extra.str);",
        "        switch (e.state) \x7b",
        "            case app::State::Open: p.push(\"open\"); break;",
        "            case app::State::Paid: p.push(\"paid\"); break;",
        "        \x7d",
        "        if (e.channel.has_value()) \x7b",
        "            switch (*e.channel) \x7b",
        "                case app::Channel::Mail: p.push(\"mail\"); break;",
        "            \x7d",
        "        \x7d else \x7b",
        "            p.pushNull();",
        "        \x7d",
        "        return p;",
        "    \x7d"] ∧
      invoice.insertBody.code.run paidByMail = some [.value "number", .json "totals", .null,
        .text "extra", .literal "paid", .literal "mail"] := by
  have hd : article.HasDistinctNames := by decide
  have hd' : invoice.HasDistinctNames := by decide
  obtain ⟨hrender, hlines, -, -, -, hcall⟩ := insert_aligned paidByMail hd
  obtain ⟨hrender', hlines', -, -, hrun', -⟩ := insert_aligned paidByMail hd'
  refine ⟨⟨hd, hrender.trans (by decide +kernel), hlines.trans (by decide +kernel),
    (hcall (by decide)).trans (by decide)⟩, hd', hrender'.trans (by decide +kernel),
    hlines'.trans (by decide +kernel), hrun'.trans (by decide)⟩

end Entity

end RowMapping
