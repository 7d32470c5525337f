import Restyle.Proofs.Cli.Schedule
import Restyle.Proofs.Text.Number

/-! # Rounds

What schedules do to a round, whatever the work on its files does: a turn of one file moves no other one, and
a schedule that gives every file turns enough brings all of them to their ends.
-/
namespace Restyle.Cli
open Engine

variable {write : Bool} {files : List String} {r : Round} {e : Engine}

/-! ### Files and documents -/

/-- The jobs are those of the files, in order, and no two of them share a document. -/
structure Round.Serves (files : List String) (r : Round) : Prop where
  given : r.jobs.map (·.file) = files
  names : (r.jobs.map (·.name)).Nodup

theorem map_file_jobsFrom (number : Nat) (files : List String) : (jobsFrom number files).map (·.file) = files := by
  induction files generalizing number with
  | nil => rfl
  | cons file files ih => exact congrArg (file :: ·) (ih (number + 1))

theorem of_mem_jobsFrom {number : Nat} {files : List String} {job : Job} (hj : job ∈ jobsFrom number files) :
    job.phase = .waiting ∧ ∃ k ≥ number, job.name = toString k := by
  induction files generalizing number with
  | nil => cases hj
  | cons file files ih =>
    rcases List.mem_cons.mp hj with rfl | hj
    · exact ⟨rfl, number, Nat.le_refl _, rfl⟩
    · obtain ⟨hphase, k, hk, hname⟩ := ih hj
      exact ⟨hphase, k, Nat.le_of_succ_le hk, hname⟩

theorem nodup_names_jobsFrom (number : Nat) (files : List String) :
    ((jobsFrom number files).map (·.name)).Nodup := by
  induction files generalizing number with
  | nil => exact List.nodup_nil
  | cons file files ih =>
    refine List.nodup_cons.mpr ⟨?_, ih (number + 1)⟩
    intro hmem
    obtain ⟨job, hjob, hname⟩ := List.mem_map.mp hmem
    obtain ⟨-, k, hk, hk'⟩ := of_mem_jobsFrom hjob
    have heq := Text.eq_of_toString_eq (hk'.symm.trans hname)
    omega

theorem Round.serves_jobsFrom (number : Nat) (files : List String) (e : Engine) :
    Serves files ⟨jobsFrom number files, e⟩ :=
  ⟨map_file_jobsFrom number files, nodup_names_jobsFrom number files⟩

theorem ne_of_nodup_map {α β : Type} {f : α → β} {front back : List α} {a : α}
    (h : ((front ++ a :: back).map f).Nodup) : ∀ other ∈ front ++ back, f other ≠ f a := by
  rw [List.map_append, List.map_cons, List.nodup_middle, ← List.map_append, List.nodup_cons] at h
  intro other hother heq
  exact h.1 (heq ▸ List.mem_map_of_mem hother)

/-! ### One turn -/

theorem Round.tick_cases (write : Bool) (r : Round) (i : Nat) : r.tick write i = r ∨
    ∃ front job back, r.jobs = front ++ job :: back ∧
      let advanced := (job.advance write).run r.engine
      r.tick write i = ⟨front ++ advanced.1 :: back, advanced.2⟩ := by
  obtain ⟨jobs, e⟩ := r
  by_cases hi : i < jobs.length
  · obtain ⟨front, back, hjobs, hlength, -⟩ := @List.exists_of_set _ i jobs[i] jobs hi
    generalize jobs[i] = job at hjobs
    subst hjobs hlength
    exact Or.inr ⟨front, job, back, rfl, tick_mid front back job e⟩
  · have hnone : jobs[i]? = none := List.getElem?_eq_none_iff.mpr (Nat.le_of_not_lt hi)
    left
    rw [tick, hnone]

theorem Round.Serves.tick (hr : r.Serves files) (i : Nat) : (r.tick write i).Serves files := by
  obtain ⟨hgiven, hnames⟩ := hr
  rcases r.tick_cases write i with htick | ⟨front, job, back, hjobs, htick⟩
  · rw [htick]
    exact ⟨hgiven, hnames⟩
  · rw [hjobs, List.map_append, List.map_cons] at hgiven hnames
    rw [htick]
    constructor
    · rw [List.map_append, List.map_cons]
      exact hgiven
    · rw [List.map_append, List.map_cons]
      exact hnames

/-- What holds of the engine before and after the turns of all files holds after a turn. -/
theorem Round.engine_tick {P : Engine → Prop} (h : P r.engine)
    (hturn : ∀ job ∈ r.jobs, P ((job.advance write).run r.engine).2) (i : Nat) : P (r.tick write i).engine := by
  rcases r.tick_cases write i with htick | ⟨front, job, back, hjobs, htick⟩
  · rw [htick]
    exact h
  · rw [htick]
    exact hturn job (hjobs ▸ List.mem_append_right front List.mem_cons_self)

/-- What every file has come to, each beside the others, it also has after a turn, if the one whose turn it is
comes to it and the others, with documents and files of their own, keep it. -/
theorem Round.forall_tick {P : Job → Engine → Prop} (hr : r.Serves files) (hkeys : (files.map stored).Nodup)
    (hall : ∀ job ∈ r.jobs, P job r.engine)
    (hturn : ∀ job ∈ r.jobs, let advanced := (job.advance write).run r.engine
      P advanced.1 advanced.2 ∧ ∀ other ∈ r.jobs, other.name ≠ job.name → stored other.file ≠ stored job.file →
        P other advanced.2) (i : Nat) :
    ∀ job ∈ (r.tick write i).jobs, P job (r.tick write i).engine := by
  rcases r.tick_cases write i with htick | ⟨front, job, back, hjobs, htick⟩
  · rw [htick]
    exact hall
  · have hnames := hr.names
    have hstored : ((front ++ job :: back).map fun job => stored job.file).Nodup := by
      rw [← hr.given, hjobs, List.map_map] at hkeys
      exact hkeys
    rw [hjobs] at hnames hturn
    obtain ⟨hown, hothers⟩ := hturn job (List.mem_append_right front List.mem_cons_self)
    have hspared (other : Job) (hother : other ∈ front ++ back) : P other ((job.advance write).run r.engine).2 := by
      have hold : other ∈ front ++ job :: back := by
        rw [List.mem_append, List.mem_cons]
        exact (List.mem_append.mp hother).imp_right Or.inr
      exact hothers other hold (ne_of_nodup_map hnames other hother) (ne_of_nodup_map hstored other hother)
    rw [htick]
    intro other hother
    -- Only the file whose turn it was has come further.
    rcases List.mem_append.mp hother with hfront | hback
    · exact hspared other (List.mem_append_left back hfront)
    rcases List.mem_cons.mp hback with rfl | hback
    · exact hown
    · exact hspared other (List.mem_append_right front hback)

/-! ### Going on -/

def Round.Ended (r : Round) : Prop := ∀ job ∈ r.jobs, ∃ result, job.phase = .ended result

def Phase.left : Phase → Nat
  | waiting => 6
  | begun _ => 5
  | unstyled _ _ => 4
  | styled _ _ _ => 3
  | judged _ _ => 2
  | prepared _ _ => 1
  | ended _ => 0

theorem Phase.left_next (p : Phase) (file name : String) (e : Engine) : ((p.next write file name).run e).1.left ≤ p.left - 1 := by
  cases p with
  | waiting =>
    have hrun : ((waiting.next write file name).run e).1 = ofTicket ((startFile file name).run e).1 := rfl
    rw [hrun]
    cases ((startFile file name).run e).1 with
    | none => exact Nat.zero_le _
    | some ticket => exact Nat.le_refl _
  | begun ticket =>
    have hrun : (((begun ticket).next write file name).run e).1 =
        afterLook ticket ((stage .styleCheck file >>= fun _ => look file).run e).1 := rfl
    rw [hrun]
    cases ((stage .styleCheck file >>= fun _ => look file).run e).1 with
    | known reason => exact Nat.le_add_left _ _
    | unknown dependencies => exact Nat.le_refl _
  | unstyled ticket dependencies => exact Nat.le_refl _
  | styled ticket dependencies style => exact Nat.le_refl _
  | judged ticket reason => exact Nat.le_refl _
  | prepared ticket result => exact Nat.le_refl _
  | ended result => exact Nat.le_refl _

def Round.left (r : Round) (i : Nat) : Nat := (r.jobs[i]?.map (·.phase.left)).getD 0

theorem Round.left_tick (write : Bool) (r : Round) (i j : Nat) :
    (r.tick write j).left i ≤ r.left i - if j = i then 1 else 0 := by
  unfold tick
  cases hj : r.jobs[j]? with
  | none =>
    dsimp only
    split
    · rename_i heq
      rw [left, ← heq, hj]
      exact Nat.zero_le _
    · exact Nat.le_refl _
  | some job =>
    dsimp only [left]
    rw [List.getElem?_set]
    split
    · rename_i heq
      subst heq
      rw [if_pos (List.getElem?_eq_some_iff.mp hj).1, hj]
      exact Phase.left_next job.phase job.file job.name r.engine
    · exact Nat.le_refl _

theorem Round.left_run (write : Bool) (r : Round) (schedule : List Nat) (i : Nat) :
    (r.run write schedule).left i ≤ r.left i - schedule.count i := by
  induction schedule generalizing r with
  | nil => exact Nat.le_refl _
  | cons j schedule ih =>
    have htick := left_tick write r i j
    have hrest := ih (r.tick write j)
    have hrun : r.run write (j :: schedule) = (r.tick write j).run write schedule := rfl
    rw [hrun, List.count_cons]
    simp only [beq_iff_eq]
    omega

theorem Round.length_run (write : Bool) (r : Round) (schedule : List Nat) :
    (r.run write schedule).jobs.length = r.jobs.length := by
  induction schedule generalizing r with
  | nil => rfl
  | cons i schedule ih =>
    refine (ih (r.tick write i)).trans ?_
    unfold tick
    split
    · rfl
    · exact List.length_set

/-- A schedule that gives every file six turns is long enough. -/
theorem Round.ended_of_count {schedule : List Nat}
    (hcount : ∀ i, i < files.length → 6 ≤ schedule.count i) :
    (Round.run write ⟨jobsFrom 0 files, e⟩ schedule).Ended := by
  intro job hjob
  obtain ⟨i, hi, hget⟩ := List.mem_iff_getElem.mp hjob
  have hlength := length_run write ⟨jobsFrom 0 files, e⟩ schedule
  have hfiles := congrArg List.length (map_file_jobsFrom 0 files)
  rw [List.length_map] at hfiles
  dsimp only at hlength
  have hleft := left_run write ⟨jobsFrom 0 files, e⟩ schedule i
  have hcount := hcount i (by omega)
  have hstart : (Round.mk (jobsFrom 0 files) e).left i ≤ 6 := by
    unfold left
    cases hget : (jobsFrom 0 files)[i]? with
    | none => exact Nat.zero_le _
    | some job =>
      rw [Option.map_some, Option.getD_some, (of_mem_jobsFrom (List.mem_of_getElem? hget)).1]
      exact Nat.le_refl _
  have hnow : (Round.run write ⟨jobsFrom 0 files, e⟩ schedule).left i = job.phase.left := by
    rw [left, List.getElem?_eq_getElem hi, hget]
    rfl
  have hzero : job.phase.left = 0 := by omega
  cases hphase : job.phase with
  | ended result => exact ⟨result, rfl⟩
  | _ =>
    rw [hphase] at hzero
    cases hzero

end Restyle.Cli
