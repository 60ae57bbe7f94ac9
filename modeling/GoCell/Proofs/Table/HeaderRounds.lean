import GoCell.Proofs.Table.HeaderTaking
import Mathlib.Logic.Function.Iterate

/-!
Headers taken again and again, while the records of the rounds before are not made known.
A round takes one row of a table, if it can be a header; so the rows that can be headers are
taken off the start of a table one by one, up to the first that cannot. Main result: what
any number of rounds leaves of each binding, and what each of them records.
-/

namespace GoCell.Table

/-- Whether a row can be a header: a sequence without a sequence in it. -/
def isFlatRow : Value → Bool
  | .seq cells => cells.all (!·.isSeq)
  | _ => false

/-- How many rows at the start of a list can be headers, up to the first that cannot. -/
def flatRows (rows : List Value) : Nat := (rows.takeWhile isFlatRow).length

/-- How many rows of a binding are there to be taken. -/
def headerDepth (known : List Columns) (b : Binding) : Nat :=
  match b.value with
  | .seq rows => if known.any (·.table == b.name) then 0 else flatRows rows
  | _ => 0

/-- The bindings after `n` rounds, and the records of each round. -/
def takeRounds (known : List Columns) : Nat → List Binding → List Binding × List (List Columns)
  | 0, bs => (bs, [])
  | n + 1, bs =>
    let (bs', taken) := takeHeaders known bs
    let (left, rounds) := takeRounds known n bs'
    (left, taken :: rounds)

/-- Whether a binding is what `n` rounds leave of another one. -/
structure IsLeftAfter (known : List Columns) (n : Nat) (b b' : Binding) : Prop where
  known_eq : (∃ c ∈ known, c.table = b.name) → b' = b
  seq_eq : (∀ c ∈ known, c.table ≠ b.name) → ∀ rows, b.value = .seq rows →
    b' = ⟨b.name, .seq (rows.drop (min n (flatRows rows)))⟩
  other_eq : b.value.isSeq = false → b' = b

/-- Whether columns are the record of row number `i` of a binding. -/
def RecordsRow (i : Nat) (b : Binding) (c : Columns) : Prop :=
  c.table = b.name ∧ ∃ rows cells, b.value = .seq rows ∧ rows[i]? = some (.seq cells) ∧
    c.names = cells.map Value.display

variable {known : List Columns} {b : Binding}

/-! ### One binding -/

/-- A binding after `n` rounds. -/
def leftAfter (known : List Columns) (n : Nat) (b : Binding) : Binding :=
  (fun b => (takeHeader known b).1)^[n] b

theorem leftAfter_succ (known : List Columns) (n : Nat) (b : Binding) :
    leftAfter known (n + 1) b = (takeHeader known (leftAfter known n b)).1 :=
  Function.iterate_succ_apply' _ n b

theorem headerDepth_of_known (h : ∃ c ∈ known, c.table = b.name) : headerDepth known b = 0 := by
  have hany : known.any (·.table == b.name) = true := by simpa using h
  unfold headerDepth
  split
  · rw [if_pos hany]
  · rfl

theorem headerDepth_of_seq {rows : List Value} (hknown : ∀ c ∈ known, c.table ≠ b.name)
    (hvalue : b.value = .seq rows) : headerDepth known b = flatRows rows := by
  rw [headerDepth, hvalue, known_any_iff.2 hknown]
  rfl

theorem headerDepth_of_not_isSeq (h : b.value.isSeq = false) : headerDepth known b = 0 := by
  unfold headerDepth
  split
  · next hvalue => simp [hvalue, Value.isSeq] at h
  · rfl

theorem isFlatRow_iff {row : Value} :
    isFlatRow row ↔ ∃ cells, row = .seq cells ∧ ∀ cell ∈ cells, cell.isSeq = false := by
  cases row <;> simp [isFlatRow]

theorem flatRows_pos_iff {rows : List Value} : 0 < flatRows rows ↔ HasHeader (.seq rows) := by
  rw [hasHeader_iff, flatRows, List.length_pos_iff]
  constructor
  · intro hne
    cases rows with
    | nil => exact absurd rfl hne
    | cons row rows =>
        by_cases hflat : isFlatRow row
        · obtain ⟨cells, rfl, hcells⟩ := isFlatRow_iff.1 hflat
          exact ⟨cells, rows, rfl, hcells⟩
        · exact absurd (List.takeWhile_cons_of_neg hflat) hne
  · rintro ⟨cells, rest, hrows, hcells⟩
    rw [Value.seq.inj hrows, List.takeWhile_cons_of_pos (isFlatRow_iff.2 ⟨cells, rfl, hcells⟩)]
    exact List.cons_ne_nil _ _

theorem isHeaded_iff : IsHeaded known b ↔ 0 < headerDepth known b := by
  constructor
  · rintro ⟨hknown, hheader⟩
    obtain ⟨cells, rows, hvalue, -⟩ := hasHeader_iff.1 hheader
    rw [headerDepth_of_seq hknown hvalue, flatRows_pos_iff, ← hvalue]
    exact hheader
  · intro hdepth
    have hknown : ∀ c ∈ known, c.table ≠ b.name := by
      intro c hc htable
      rw [headerDepth_of_known ⟨c, hc, htable⟩] at hdepth
      exact absurd hdepth (by decide)
    cases hvalue : b.value with
    | seq rows =>
        rw [headerDepth_of_seq hknown hvalue, flatRows_pos_iff, ← hvalue] at hdepth
        exact ⟨hknown, hdepth⟩
    | _ => simp [headerDepth, hvalue] at hdepth

/-- A row that is taken is one less to be taken. -/
theorem LosesFirstRow.headerDepth_eq {b' : Binding} (hheaded : IsHeaded known b)
    (h : LosesFirstRow b b') : headerDepth known b = headerDepth known b' + 1 := by
  obtain ⟨hname, row, rows, hvalue, hvalue'⟩ := h
  have hflat : isFlatRow row = true := by
    obtain ⟨cells, rows', hrow, hcells⟩ := hasHeader_iff.1 hheaded.2
    rw [hvalue, Value.seq.injEq, List.cons.injEq] at hrow
    exact isFlatRow_iff.2 ⟨cells, hrow.1, hcells⟩
  rw [headerDepth_of_seq hheaded.1 hvalue, headerDepth_of_seq (hname ▸ hheaded.1) hvalue',
    flatRows, List.takeWhile_cons_of_pos hflat, List.length_cons, flatRows]

theorem headerDepth_takeHeader (known : List Columns) (b : Binding) :
    headerDepth known (takeHeader known b).1 = headerDepth known b - 1 := by
  by_cases hheaded : IsHeaded known b
  · obtain ⟨b', c, htaken, hloses, -⟩ := exists_takeHeader hheaded
    rw [htaken, hloses.headerDepth_eq hheaded, Nat.add_sub_cancel]
  · have hzero : headerDepth known b = 0 := Nat.eq_zero_of_not_pos (mt isHeaded_iff.2 hheaded)
    rw [takeHeader_of_not_isHeaded hheaded, hzero]

theorem headerDepth_leftAfter (known : List Columns) (n : Nat) (b : Binding) :
    headerDepth known (leftAfter known n b) = headerDepth known b - n := by
  induction n with
  | zero => rfl
  | succ n ih => rw [leftAfter_succ, headerDepth_takeHeader, ih, Nat.sub_sub]

theorem isHeaded_leftAfter_iff {n : Nat} :
    IsHeaded known (leftAfter known n b) ↔ n < headerDepth known b := by
  rw [isHeaded_iff, headerDepth_leftAfter, Nat.sub_pos_iff_lt]

theorem leftAfter_of_headerDepth_eq_zero (h : headerDepth known b = 0) (n : Nat) :
    leftAfter known n b = b := by
  induction n with
  | zero => rfl
  | succ n ih =>
      rw [leftAfter_succ, ih, takeHeader_of_not_isHeaded]
      rw [isHeaded_iff, h]
      exact Nat.lt_irrefl 0

theorem leftAfter_of_seq {rows : List Value} (h : b.value = .seq rows) (n : Nat) :
    leftAfter known n b = ⟨b.name, .seq (rows.drop (min n (headerDepth known b)))⟩ := by
  induction n with
  | zero =>
      rw [Nat.zero_min, List.drop_zero, ← h]
      rfl
  | succ n ih =>
      rw [leftAfter_succ]
      by_cases hheaded : IsHeaded known (leftAfter known n b)
      · obtain ⟨b', c, htaken, ⟨hname, row, rest, hvalue, hvalue'⟩, -⟩ := exists_takeHeader hheaded
        have hlt := isHeaded_leftAfter_iff.1 hheaded
        rw [ih] at hname hvalue
        rw [Nat.min_eq_left (Nat.le_of_lt hlt), Value.seq.injEq] at hvalue
        rw [htaken, Nat.min_eq_left (Nat.succ_le_of_lt hlt), ← List.tail_drop, hvalue,
          List.tail_cons, ← hvalue', ← hname]
      · have hge := Nat.le_of_not_lt (mt isHeaded_leftAfter_iff.2 hheaded)
        rw [takeHeader_of_not_isHeaded hheaded, ih, Nat.min_eq_right hge,
          Nat.min_eq_right (Nat.le_succ_of_le hge)]

theorem isLeftAfter_leftAfter (known : List Columns) (n : Nat) (b : Binding) :
    IsLeftAfter known n b (leftAfter known n b) where
  known_eq h := leftAfter_of_headerDepth_eq_zero (headerDepth_of_known h) n
  seq_eq hknown rows hvalue := by
    rw [leftAfter_of_seq hvalue, headerDepth_of_seq hknown hvalue]
  other_eq h := leftAfter_of_headerDepth_eq_zero (headerDepth_of_not_isSeq h) n

/-- The first row that is left after `n` rounds is row number `n`. -/
theorem RecordsFirstRow.recordsRow {n : Nat} {c : Columns} (hn : n < headerDepth known b)
    (h : RecordsFirstRow (leftAfter known n b) c) : RecordsRow n b c := by
  obtain ⟨htable, cells, rest, hvalue, hnames⟩ := h
  cases hseq : b.value with
  | seq rows =>
      rw [leftAfter_of_seq hseq, Nat.min_eq_left (Nat.le_of_lt hn)] at htable hvalue
      rw [Value.seq.injEq] at hvalue
      refine ⟨htable, rows, cells, hseq, ?_, hnames⟩
      rw [← List.head?_drop, hvalue, List.head?_cons]
  | _ => simp [headerDepth, hseq] at hn

theorem headerDepth_le {n : Nat} (h : ∀ rows, b.value = .seq rows → rows.length ≤ n) :
    headerDepth known b ≤ n := by
  unfold headerDepth
  split
  · next rows hvalue =>
      split
      · exact Nat.zero_le n
      · exact Nat.le_trans (List.takeWhile_sublist _).length_le (h rows hvalue)
  · exact Nat.zero_le n

/-! ### All bindings -/

theorem takeRounds_fst (known : List Columns) (n : Nat) (bs : List Binding) :
    (takeRounds known n bs).1 = bs.map (leftAfter known n) := by
  induction n generalizing bs with
  | zero => exact (List.map_id bs).symm
  | succ n ih =>
      show (takeRounds known n (takeHeaders known bs).1).1 = _
      rw [ih, takeHeaders, List.map_map]
      rfl

theorem takeRounds_snd (known : List Columns) (n : Nat) (bs : List Binding) :
    (takeRounds known n bs).2 =
      (List.range n).map fun i => (takeHeaders known (bs.map (leftAfter known i))).2 := by
  induction n generalizing bs with
  | zero => rfl
  | succ n ih =>
      show (takeHeaders known bs).2 :: (takeRounds known n (takeHeaders known bs).1).2 = _
      rw [ih, List.range_succ_eq_map, List.map_cons, List.map_map]
      congr 1
      · exact congrArg (fun bs => (takeHeaders known bs).2) (List.map_id bs).symm
      · refine List.map_congr_left fun i _ => congrArg (fun bs => (takeHeaders known bs).2) ?_
        exact List.map_map

/-- The records of one round, in the order of the bindings. -/
theorem forall₂_recordsRow (known : List Columns) (i : Nat) (bs : List Binding) :
    List.Forall₂ (RecordsRow i) (bs.filter (i < headerDepth known ·))
      (takeHeaders known (bs.map (leftAfter known i))).2 := by
  have hrecords := forall₂_columns_takeHeaders known (bs.map (leftAfter known i))
  have hfilter : bs.filter ((fun b => decide (IsHeaded known b)) ∘ leftAfter known i) =
      bs.filter (i < headerDepth known ·) :=
    List.filter_congr fun b _ => decide_eq_decide.2 isHeaded_leftAfter_iff
  rw [List.filter_map, List.forall₂_map_left_iff, hfilter] at hrecords
  have hdepth : ∀ b ∈ bs.filter (i < headerDepth known ·), i < headerDepth known b := by
    intro b hb
    simpa using (List.mem_filter.1 hb).2
  exact ((List.forall₂_and_left _ _).2 ⟨hdepth, hrecords⟩).imp fun b c h => h.2.recordsRow h.1

/-- A round changes nothing just where no binding has a row left to be taken. -/
theorem takeHeaders_map_leftAfter_eq_iff (known : List Columns) (n : Nat) (bs : List Binding) :
    takeHeaders known (bs.map (leftAfter known n)) = (bs.map (leftAfter known n), []) ↔
      ∀ b ∈ bs, headerDepth known b ≤ n := by
  constructor
  · intro h b hb
    have hlength := (forall₂_recordsRow known n bs).length_eq
    rw [h, List.length_nil, List.length_eq_zero_iff, List.filter_eq_nil_iff] at hlength
    simpa using hlength b hb
  · intro h
    refine takeHeaders_of_forall_not_isHeaded (List.forall_mem_map.2 fun b hb => ?_)
    rw [isHeaded_leftAfter_iff]
    exact Nat.not_lt.2 (h b hb)

/-- In `n` rounds a table without known columns loses its first `n` rows that can be headers,
or all that follow one another from its start if they are fewer, and nothing else changes.
Round number `i` records row number `i` of exactly the tables that have one to be taken. A
further round changes nothing just where no table has more than `n` rows to be taken, so
there are never more rounds that change anything than rows. -/
theorem takeRounds_peels (known : List Columns) (n : Nat) (bs : List Binding) :
    ∃ bs' rounds, takeRounds known n bs = (bs', rounds) ∧
      List.Forall₂ (IsLeftAfter known n) bs bs' ∧
      List.Forall₂ (fun i taken =>
        List.Forall₂ (RecordsRow i) (bs.filter (i < headerDepth known ·)) taken)
        (List.range n) rounds ∧
      (takeHeaders known bs' = (bs', []) ↔ ∀ b ∈ bs, headerDepth known b ≤ n) ∧
      ((∀ b ∈ bs, ∀ rows, b.value = .seq rows → rows.length ≤ n) →
        takeHeaders known bs' = (bs', [])) := by
  have hstable := takeHeaders_map_leftAfter_eq_iff known n bs
  refine ⟨_, _, rfl, ?_, ?_, ?_, ?_⟩
  · rw [takeRounds_fst, List.forall₂_map_right_iff, List.forall₂_same]
    exact fun b _ => isLeftAfter_leftAfter known n b
  · rw [takeRounds_snd, List.forall₂_map_right_iff, List.forall₂_same]
    exact fun i _ => forall₂_recordsRow known i bs
  · rw [takeRounds_fst]
    exact hstable
  · intro hrows
    rw [takeRounds_fst]
    exact hstable.2 fun b hb => headerDepth_le (hrows b hb)

/-- The third row can be no header, and hides the fourth, which could. -/
example : (takeRounds [] 3 [⟨"t", .seq [.seq [.text "a"], .seq [.text "b", .nil],
    .seq [.seq []], .seq [.text "c"]]⟩, ⟨"n", .nil⟩]).2 = [[⟨"t", ["a"]⟩], [⟨"t", ["b", "nil"]⟩], []] := by
  decide

end GoCell.Table
