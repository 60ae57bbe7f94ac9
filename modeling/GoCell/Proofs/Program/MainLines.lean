import GoCell.Proofs.Go.MainPattern
import GoCell.Proofs.Program.Assembly

/-!
How many entry points a program has. A body without one that is asked to have one gets a
line for it before all others; every other body keeps the lines that it has.
-/

namespace GoCell.Cell

open Go (IsMainLine mainCount)

variable {settings : Settings} {cell : Cell} {p : Program}

theorem body_of_assemble (h : cell.assemble settings = .ok p) :
    p.body = if cell.entryPoint = true ∧ mainCount (Go.splitClause cell.body).2.toList = 0 then
        Go.wrapMain (Go.splitClause cell.body).2
      else String.ofList (Text.trimBreaks (Go.splitClause cell.body).2.toList) := by
  obtain ⟨-, -, -, -, -, hbody⟩ := assemble_eq_ok_iff.1 h
  rw [hbody, bodySection, Go.hasMain_eq]
  simp

/-- The search for an entry point is one for its pattern at the start of any line, and can be
made line by line. A program has a line that starts `main` more than the body of its cell only
where it is asked to have one and the body has none; it is the first line then. -/
theorem assemble_mainLines :
    (∀ text : String, (Go.hasMain text = true ↔ Go.FindsMain text.toList) ∧
      (Go.hasMain text = true ↔ ∃ line ∈ text.toList.splitOn '\n', IsMainLine line)) ∧
    (∀ a b : String, Go.hasMain (a ++ "\n" ++ b) = (Go.hasMain a || Go.hasMain b)) ∧
    ∀ (settings : Settings) (cell : Cell) (p : Program), cell.assemble settings = .ok p →
      let rest := (Go.splitClause cell.body).2.toList
      (cell.entryPoint = true ∧ (∀ line ∈ rest.splitOn '\n', ¬IsMainLine line) →
        ∃ first others, p.body.toList.splitOn '\n' = first :: others ∧ IsMainLine first ∧
          ∀ line ∈ others, ¬IsMainLine line) ∧
      (¬(cell.entryPoint = true ∧ ∀ line ∈ rest.splitOn '\n', ¬IsMainLine line) →
        mainCount p.body.toList = mainCount rest) := by
  refine ⟨fun text => ⟨Go.hasMain_iff_findsMain, Go.hasMain_iff_exists_line⟩,
    Go.hasMain_append_lf, ?_⟩
  intro settings cell p h rest
  have hbody := body_of_assemble h
  simp only [← Go.mainCount_eq_zero_iff]
  constructor
  · intro hwrap
    rw [if_pos hwrap] at hbody
    refine ⟨_, _, hbody ▸ Go.splitOn_wrapMain _, by decide, ?_⟩
    rw [List.forall_mem_append, List.forall_mem_singleton, ← Go.mainCount_eq_zero_iff,
      Go.mainCount_trimBreaks]
    exact ⟨hwrap.2, by decide⟩
  · intro hkeep
    rw [if_neg hkeep] at hbody
    rw [hbody, String.toList_ofList, Go.mainCount_trimBreaks]

/-- Two lines after the clause that only look like the start of `main`. -/
def nearMainCell : Cell :=
  { body := "package p\nfunc main(args []string) \x7b\x7d\r\nfunc\r main()\n\r\n" }

/-- Two lines that start `main`, and line breaks after them. -/
def repeatedMainCell : Cell :=
  { body := "func main() \x7b\x7d\n\tfunc \t main\t( ) \x7b\x7d\r\n\r" }

theorem assemble_mainLines_nearMainCell :
    (∃ p, nearMainCell.assemble {} = .ok p ∧ ∃ first others,
      p.body.toList.splitOn '\n' = first :: others ∧ IsMainLine first ∧
        ∀ line ∈ others, ¬IsMainLine line) ∧
    ∃ p, repeatedMainCell.assemble {} = .ok p ∧ mainCount p.body.toList = 2 := by
  obtain ⟨p, hp⟩ := exists_eq_ok_of_isSome
    (show (nearMainCell.assemble {}).toOption.isSome by decide)
  obtain ⟨q, hq⟩ := exists_eq_ok_of_isSome
    (show (repeatedMainCell.assemble {}).toOption.isSome by decide)
  have hnone : mainCount (Go.splitClause nearMainCell.body).2.toList = 0 := by decide
  have htwo : mainCount (Go.splitClause repeatedMainCell.body).2.toList = 2 := by decide
  refine ⟨⟨p, hp, (assemble_mainLines.2.2 {} _ p hp).1
    ⟨rfl, Go.mainCount_eq_zero_iff.1 hnone⟩⟩, q, hq, ?_⟩
  rw [(assemble_mainLines.2.2 {} _ q hq).2, htwo]
  rintro ⟨-, hlines⟩
  rw [Go.mainCount_eq_zero_iff.2 hlines] at htwo
  cases htwo

end GoCell.Cell
