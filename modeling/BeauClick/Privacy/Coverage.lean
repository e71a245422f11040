import Mathlib.Data.List.Basic

/-!
# Coverage of the subject data

`evaluateCoverage` (`libs/subject-data/src/coverage.ts`): the tables of the database against the
tables that the modules claim.

* `coverage_iff` — what it means that there is no violation.
-/

namespace BeauClick.Privacy

open List

/-- What becomes of a table's rows. -/
inductive SubjectTableDisposition where
  | subjectData
  | retained
  | noSubjectData
  deriving DecidableEq

/-- A claim about one table. -/
structure SubjectTableClaim where
  table : String
  disposition : SubjectTableDisposition
  deriving DecidableEq

/-- What a service claims. -/
structure SubjectDataContract where
  moduleKey : String
  tables : List SubjectTableClaim

/-- `SUBJECT_COLUMN_NAMES`. -/
def subjectColumnNames : List String :=
  ["user_id", "customer_id", "owner_id", "actor_id", "subject_id", "cancelled_by_actor_id", "phone",
    "email"]

/-- `SUBJECT_COLUMN_SUFFIXES`. -/
def subjectColumnSuffixes : List String := ["_by", "_user_id"]

/-- A column that names a person. -/
def isSubjectColumn (column : String) : Bool :=
  subjectColumnNames.contains column ||
    subjectColumnSuffixes.any fun suffix => suffix.toList.isSuffixOf column.toList

/-- A table of the database. -/
structure CatalogueTable where
  schema : String
  name : String
  columns : List String

def qualifiedName (table : CatalogueTable) : String := table.schema ++ "." ++ table.name

/-- The kinds of a violation. -/
inductive CoverageKind where
  | unclaimed
  | claimedTwice
  | claimedButAbsent
  | wronglyDeclaredEmpty

/-- A violation, and the table it is about. -/
structure CoverageViolation where
  kind : CoverageKind
  table : String
  detail : String

/-- What the check answers. -/
structure CoverageReport where
  tablesInDatabase : ℕ
  tablesClaimed : ℕ
  violations : List CoverageViolation
  byDisposition : SubjectTableDisposition → ℕ

/-- The claims of all modules, each beside its module's key. -/
def claimed (contracts : List SubjectDataContract) : List (String × SubjectTableClaim) :=
  contracts.flatMap fun contract => contract.tables.map fun claim => (contract.moduleKey, claim)

/-- The row of a table in the map of claims. -/
def claimants (contracts : List SubjectDataContract) (table : String) :
    List (String × SubjectTableClaim) :=
  (claimed contracts).filter fun c => c.2.table = table

/-- A claim that there is nothing in a table with columns of a subject. -/
def wronglyDeclaredEmpty (table : CatalogueTable) (c : String × SubjectTableClaim) :
    List CoverageViolation :=
  let offending := table.columns.filter isSubjectColumn
  if c.2.disposition = .noSubjectData ∧ offending ≠ [] then
    [⟨.wronglyDeclaredEmpty, qualifiedName table,
      c.1 ++ " declares this table holds no subject data, but it carries " ++
        ", ".intercalate offending ++ ". Re-classify it as subject_data or retained."⟩]
  else []

/-- What is wrong with the claims about one table. -/
def tableViolations (contracts : List SubjectDataContract) (table : CatalogueTable) :
    List CoverageViolation :=
  let name := qualifiedName table
  match claimants contracts name with
  | [] =>
    [⟨.unclaimed, name,
      "No module claims this table. Every table must be claimed by exactly one " ++
        "SubjectDataContract, as subject_data, retained, or no_subject_data -- a table nobody " ++
        "classified is a table nobody exports or erases."⟩]
  | c :: cs =>
    (if cs = [] then [] else
      [⟨.claimedTwice, name, "Claimed by " ++ " and ".intercalate ((c :: cs).map Prod.fst) ++
        ". A table with two owners has none: each module assumes the other erased it."⟩]) ++
    (c :: cs).flatMap (wronglyDeclaredEmpty table)

/-- The violations of every table, and of claims about no table. -/
def evaluateCoverage (catalogue : List CatalogueTable) (contracts : List SubjectDataContract) :
    CoverageReport :=
  let names := ((claimed contracts).map fun c => c.2.table).eraseDups
  let absent := names.filter fun name => name ∉ catalogue.map qualifiedName
  { tablesInDatabase := catalogue.length
    tablesClaimed := names.length
    violations := catalogue.flatMap (tableViolations contracts) ++ absent.map fun name =>
      ⟨.claimedButAbsent, name, ", ".intercalate ((claimants contracts name).map Prod.fst) ++
        " claims a table that does not exist. A stale claim silently covers nothing, which is " ++
        "worse than no claim at all -- it reads as coverage."⟩
    byDisposition := fun d => (claimed contracts).countP fun c => c.2.disposition = d }

variable {table : CatalogueTable} {contracts : List SubjectDataContract}

theorem wronglyDeclaredEmpty_eq_nil {c : String × SubjectTableClaim} :
    wronglyDeclaredEmpty table c = [] ↔
      (c.2.disposition = .noSubjectData → ∀ column ∈ table.columns, ¬isSubjectColumn column) := by
  rw [wronglyDeclaredEmpty]
  simp

theorem tableViolations_eq_nil : tableViolations contracts table = [] ↔
    ∃ c, claimants contracts (qualifiedName table) = [c] ∧
      (c.2.disposition = .noSubjectData → ∀ column ∈ table.columns, ¬isSubjectColumn column) := by
  rw [tableViolations]
  split <;> rename_i heq
  · simp [heq]
  · rename_i c cs
    simp only [heq, append_eq_nil_iff, flatMap_eq_nil_iff, mem_cons]
    constructor
    · rintro ⟨hone, hempty⟩
      have hcs : cs = [] := by simpa using hone
      exact ⟨c, by rw [hcs], wronglyDeclaredEmpty_eq_nil.1 (hempty c (Or.inl rfl))⟩
    · rintro ⟨_, hc', hempty⟩
      obtain ⟨rfl, rfl⟩ := List.cons.inj hc'
      refine ⟨if_pos rfl, fun x hx => ?_⟩
      rw [hx.resolve_right not_mem_nil]
      exact wronglyDeclaredEmpty_eq_nil.2 hempty

/-- There is no violation exactly when every table is claimed once, a table with columns of a
subject is not declared empty, and every claim is of a table that there is. -/
theorem coverage_iff (catalogue : List CatalogueTable) (contracts : List SubjectDataContract) :
    (evaluateCoverage catalogue contracts).violations = [] ↔
      (∀ table ∈ catalogue, ∃ c, claimants contracts (qualifiedName table) = [c] ∧
        (c.2.disposition = .noSubjectData →
          ∀ column ∈ table.columns, ¬isSubjectColumn column)) ∧
      ∀ contract ∈ contracts, ∀ claim ∈ contract.tables,
        ∃ table ∈ catalogue, qualifiedName table = claim.table := by
  rw [evaluateCoverage, append_eq_nil_iff, flatMap_eq_nil_iff, map_eq_nil_iff,
    filter_eq_nil_iff]
  refine and_congr (forall₂_congr fun _ _ => tableViolations_eq_nil) ?_
  have hmem : ∀ name, name ∈ ((claimed contracts).map fun c => c.2.table).eraseDups ↔
      ∃ claim, (∃ contract ∈ contracts, claim ∈ contract.tables) ∧ claim.table = name := by
    simp [claimed]
  constructor
  · intro h contract hcontract claim hclaim
    have habs := h claim.table ((hmem _).2 ⟨claim, ⟨contract, hcontract, hclaim⟩, rfl⟩)
    simpa using habs
  · intro h name hname
    obtain ⟨claim, ⟨contract, hcontract, hclaim⟩, rfl⟩ := (hmem name).1 hname
    simpa using h contract hcontract claim hclaim

end BeauClick.Privacy
