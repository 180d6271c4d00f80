import Mathlib.Data.List.Sort
import Mathlib.Data.String.Basic
import ProductionRag.Basis.System
import ProductionRag.Basis.Table
import ProductionRag.Python

/-!
# Schema migrations

`apply_migrations` reads `applied_migrations` in one transaction, under an advisory
lock that is released when it commits, and then applies each file it did not find
there in a transaction of its own.  Any number of deploys run at once, each of them
one transaction at a time, and any of them may die between two.
-/

set_option autoImplicit false

namespace ProductionRag

open Basis

/-- `glob("[0-9][0-9][0-9]_*.sql")` -/
def isMigrationFile (name : String) : Bool :=
  match name.toList with
  | first :: second :: third :: '_' :: rest =>
    first.isDigit && second.isDigit && third.isDigit && ".sql".toList.isSuffixOf rest
  | _ => false

/-- `path.name[:3]` -/
def migrationNumber (name : String) : List Char := name.toList.take 3

def migrationFiles (directory : List String) : Except PyError (List String) :=
  let files := (directory.filter isMigrationFile).insertionSort (· ≤ ·)
  let numbers := files.map migrationNumber
  if numbers.Nodup then .ok files
  else .error (.other "migration numbers must be unique")

/-- One run of `apply_migrations` after its first transaction. -/
inductive Deploy where
  | looping (applied remaining newlyApplied : List String)
  | returned (newlyApplied : List String)
  | raised (error : PyError)
  /-- The file was applied since the deploy read the table, so its row is a duplicate. -/
  | overtaken (file : String)
  | crashed
  deriving DecidableEq

structure Migrations where
  /-- The rows of `applied_migrations`, in the order of their commits. -/
  applied : List String
  deploys : Table Nat Deploy
  deriving DecidableEq

inductive MigrationEvent where
  | start (deploy : Nat)
  /-- One round of the loop; the statements of its file may fail. -/
  | round (deploy : Nat) (sql : Except PyError Unit)
  | crash (deploy : Nat)
  deriving DecidableEq

namespace Migrations

def fresh (applied : List String) : Migrations := ⟨applied, .empty⟩

/-- The transaction of one file: its statements and the row that records it. -/
def applyFile (state : Migrations) (file : String) (sql : Except PyError Unit) :
    Except Deploy (List String) :=
  if file ∈ state.applied then .error (.overtaken file)
  else match sql with
    | .error e => .error (.raised e)
    | .ok () => .ok (state.applied ++ [file])

def step (directory : List String) (state : Migrations) : MigrationEvent → Option Migrations
  | .start deploy =>
    match state.deploys.find? deploy with
    | some _ => none
    | none =>
      let next := match migrationFiles directory with
        | .error e => .raised e
        | .ok files => .looping state.applied files []
      some { state with deploys := state.deploys.set deploy next }
  | .round deploy sql =>
    match state.deploys.find? deploy with
    | some (.looping _ [] newlyApplied) =>
      some { state with deploys := state.deploys.set deploy (.returned newlyApplied) }
    | some (.looping applied (file :: rest) newlyApplied) =>
      if file ∈ applied then
        some { state with
          deploys := state.deploys.set deploy (.looping applied rest newlyApplied) }
      else match state.applyFile file sql with
        | .error ended => some { state with deploys := state.deploys.set deploy ended }
        | .ok recorded =>
          some { applied := recorded,
                 deploys := state.deploys.set deploy
                   (.looping applied rest (newlyApplied ++ [file])) }
    | _ => none
  | .crash deploy =>
    match state.deploys.find? deploy with
    | some (.looping ..) => some { state with deploys := state.deploys.set deploy .crashed }
    | _ => none

/-- Deploys of one directory on a database where `applied` ran before. -/
def system (directory applied : List String) : System Migrations MigrationEvent :=
  ⟨fresh applied, step directory⟩

end Migrations

/-- The file still comes up in the loop of the deploy, which did not find it applied. -/
def Deploy.Awaits (file : String) : Deploy → Prop
  | .looping applied remaining _ => file ∈ remaining ∧ file ∉ applied
  | _ => False

instance (file : String) (deploy : Deploy) : Decidable (deploy.Awaits file) := by
  cases deploy <;> unfold Deploy.Awaits <;> infer_instance

/-- The file whose transaction the next round runs. -/
def Deploy.pending? : Deploy → Option String
  | .looping applied (file :: _) _ => if file ∈ applied then none else some file
  | _ => none

namespace Migrations

/-- The files are committed in filename order, none twice and none left out before a
later one; a deploy that returns leaves all of them applied; and none fails because
another one applied its file. -/
structure Safe (files : List String) (state : Migrations) : Prop where
  ordered : state.applied <+: files
  complete : ∀ deploy newlyApplied,
    state.deploys.find? deploy = some (.returned newlyApplied) → state.applied = files
  undisturbed : ∀ deploy file, state.deploys.find? deploy ≠ some (.overtaken file)

/-- Nobody applies a file that another deploy, still running, did not find applied and has
yet to come to. -/
def Exclusive (state : Migrations) : MigrationEvent → Prop
  | .round deploy _ =>
    ∀ own ∈ state.deploys.find? deploy, ∀ file ∈ own.pending?,
      ∀ entry ∈ state.deploys.entries, entry.1 ≠ deploy → ¬ entry.2.Awaits file
  | _ => True

instance (state : Migrations) (event : MigrationEvent) : Decidable (state.Exclusive event) := by
  cases event <;> unfold Exclusive <;> infer_instance

/-! ## What a step does -/

/-- Everything a step can do: what the table holds afterwards and how the deploy goes on. -/
inductive Turn (directory : List String) (state : Migrations) (deploy : Nat) :
    MigrationEvent → List String → Deploy → Prop
  | refused {e : PyError} (idle : state.deploys.find? deploy = none)
      (listed : migrationFiles directory = .error e) :
      Turn directory state deploy (.start deploy) state.applied (.raised e)
  | started {files : List String} (idle : state.deploys.find? deploy = none)
      (listed : migrationFiles directory = .ok files) :
      Turn directory state deploy (.start deploy) state.applied
        (.looping state.applied files [])
  | returned {applied newlyApplied : List String} {sql : Except PyError Unit}
      (found : state.deploys.find? deploy = some (.looping applied [] newlyApplied)) :
      Turn directory state deploy (.round deploy sql) state.applied (.returned newlyApplied)
  | skipped {applied rest newlyApplied : List String} {file : String}
      {sql : Except PyError Unit}
      (found : state.deploys.find? deploy = some (.looping applied (file :: rest) newlyApplied))
      (known : file ∈ applied) :
      Turn directory state deploy (.round deploy sql) state.applied
        (.looping applied rest newlyApplied)
  | overtaken {applied rest newlyApplied : List String} {file : String}
      {sql : Except PyError Unit}
      (found : state.deploys.find? deploy = some (.looping applied (file :: rest) newlyApplied))
      (pending : file ∉ applied) (duplicate : file ∈ state.applied) :
      Turn directory state deploy (.round deploy sql) state.applied (.overtaken file)
  | raised {applied rest newlyApplied : List String} {file : String} {e : PyError}
      (found : state.deploys.find? deploy = some (.looping applied (file :: rest) newlyApplied)) :
      Turn directory state deploy (.round deploy (.error e)) state.applied (.raised e)
  | applied {applied rest newlyApplied : List String} {file : String}
      (found : state.deploys.find? deploy = some (.looping applied (file :: rest) newlyApplied))
      (pending : file ∉ applied) (new : file ∉ state.applied) :
      Turn directory state deploy (.round deploy (.ok ())) (state.applied ++ [file])
        (.looping applied rest (newlyApplied ++ [file]))
  | crashed {applied remaining newlyApplied : List String}
      (found : state.deploys.find? deploy = some (.looping applied remaining newlyApplied)) :
      Turn directory state deploy (.crash deploy) state.applied .crashed

theorem step_turn {directory : List String} {state state' : Migrations}
    {event : MigrationEvent} (taken : step directory state event = some state') :
    ∃ deploy applied next, Turn directory state deploy event applied next ∧
      state' = ⟨applied, state.deploys.set deploy next⟩ := by
  cases event with
  | start deploy =>
      simp only [step] at taken
      cases idle : state.deploys.find? deploy with
      | some next => simp [idle] at taken
      | none =>
          rw [idle] at taken
          cases listed : migrationFiles directory with
          | error e =>
              rw [listed] at taken
              exact ⟨deploy, _, _, .refused idle listed, (Option.some.inj taken).symm⟩
          | ok files =>
              rw [listed] at taken
              exact ⟨deploy, _, _, .started idle listed, (Option.some.inj taken).symm⟩
  | round deploy sql =>
      simp only [step] at taken
      split at taken
      · rename_i found
        exact ⟨deploy, _, _, .returned found, (Option.some.inj taken).symm⟩
      · rename_i applied file rest newlyApplied found
        split at taken
        · rename_i known
          exact ⟨deploy, _, _, .skipped found known, (Option.some.inj taken).symm⟩
        · rename_i pending
          unfold applyFile at taken
          split at taken
          · rename_i ended tried
            split at tried
            · rename_i duplicate
              cases tried
              exact ⟨deploy, _, _, .overtaken found pending duplicate,
                (Option.some.inj taken).symm⟩
            · cases sql with
              | error e =>
                  cases tried
                  exact ⟨deploy, _, _, .raised found, (Option.some.inj taken).symm⟩
              | ok done => cases tried
          · rename_i recorded tried
            split at tried
            · cases tried
            · rename_i new
              cases sql with
              | error e => cases tried
              | ok done =>
                  cases tried
                  exact ⟨deploy, _, _, .applied found pending new,
                    (Option.some.inj taken).symm⟩
      · cases taken
  | crash deploy =>
      simp only [step] at taken
      split at taken
      · rename_i found
        exact ⟨deploy, _, _, .crashed found, (Option.some.inj taken).symm⟩
      · cases taken

end Migrations

/-! ## The files are applied in order -/

/-- Reaching a file that is not in a prefix, past files that are, the prefix ends there. -/
theorem prefix_eq_of_reached {α : Type} {committed visited rest : List α} {file : α}
    (isPrefix : committed <+: visited ++ file :: rest) (seen : visited ⊆ committed)
    (new : file ∉ committed) (distinct : (visited ++ file :: rest).Nodup) :
    committed = visited := by
  rcases List.prefix_or_prefix_of_prefix isPrefix (List.prefix_append visited (file :: rest))
    with ⟨later, rfl⟩ | ⟨later, rfl⟩
  · -- what is visited beyond the prefix would be in it twice
    cases later with
    | nil => rw [List.append_nil]
    | cons other more =>
        rw [List.append_assoc] at distinct
        have twice := seen (List.mem_append_right committed (List.mem_cons_self (a := other)))
        have disjoint := (List.nodup_append.mp distinct).2.2
        exact absurd rfl (disjoint other twice other List.mem_cons_self)
  · cases later with
    | nil => exact List.append_nil _
    | cons other more =>
        have same := (List.prefix_append_right_inj visited).mp isPrefix
        obtain ⟨rfl, _⟩ := List.cons_prefix_cons.mp same
        exact absurd (List.mem_append_right _ List.mem_cons_self) new

/-- Where a deploy stands: the files behind it are applied, and so are those it found. -/
def Deploy.OnTrack (files applied : List String) : Deploy → Prop
  | .looping found remaining _ =>
    found ⊆ applied ∧ ∃ visited, files = visited ++ remaining ∧ visited ⊆ applied
  | .returned _ => files ⊆ applied
  | _ => True

theorem Deploy.OnTrack.mono {files applied more : List String} {deploy : Deploy}
    (onTrack : deploy.OnTrack files applied) (grown : applied ⊆ more) :
    deploy.OnTrack files more := by
  cases deploy with
  | looping found remaining newlyApplied =>
      obtain ⟨known, visited, split, seen⟩ := onTrack
      exact ⟨List.Subset.trans known grown, visited, split, List.Subset.trans seen grown⟩
  | returned newlyApplied => exact List.Subset.trans onTrack grown
  | _ => trivial

theorem migrationFiles_nodup {directory files : List String}
    (listed : migrationFiles directory = .ok files) : files.Nodup := by
  unfold migrationFiles at listed
  dsimp only at listed
  split at listed
  · rename_i distinct
    rw [← Except.ok.inj listed]
    exact distinct.of_map
  · cases listed

theorem migrationFiles_sorted {directory files : List String}
    (listed : migrationFiles directory = .ok files) : files.Pairwise (· < ·) := by
  have distinct := migrationFiles_nodup listed
  have ordered : files.Pairwise (· ≤ ·) := by
    unfold migrationFiles at listed
    dsimp only at listed
    split at listed
    · rw [← Except.ok.inj listed]
      exact List.pairwise_insertionSort _ _
    · cases listed
  exact ordered.imp₂ (fun _ _ le ne => lt_of_le_of_ne le ne) distinct

namespace Migrations

/-- The table holds a prefix of the files, and every deploy is on its track. -/
structure Ordered (files : List String) (state : Migrations) : Prop where
  isPrefix : state.applied <+: files
  onTrack : ∀ deploy next, state.deploys.find? deploy = some next →
    next.OnTrack files state.applied

theorem Turn.applied_grows {directory applied : List String} {state : Migrations}
    {deploy : Nat} {event : MigrationEvent} {next : Deploy}
    (turn : Turn directory state deploy event applied next) : state.applied ⊆ applied := by
  cases turn with
  | applied => exact List.subset_append_left _ _
  | _ => exact List.Subset.refl _

theorem Ordered.turn {directory files applied : List String} {state : Migrations}
    {deploy : Nat} {event : MigrationEvent} {next : Deploy}
    (listed : migrationFiles directory = .ok files) (ordered : state.Ordered files)
    (turn : Turn directory state deploy event applied next) :
    applied <+: files ∧ next.OnTrack files applied := by
  obtain ⟨isPrefix, onTrack⟩ := ordered
  cases turn with
  | refused => exact ⟨isPrefix, trivial⟩
  | started _ found =>
      rw [listed] at found
      obtain rfl := Except.ok.inj found
      exact ⟨isPrefix, List.Subset.refl _, [], rfl, List.nil_subset _⟩
  | returned found =>
      obtain ⟨_, visited, split, seen⟩ := onTrack deploy _ found
      rw [List.append_nil] at split
      exact ⟨isPrefix, split ▸ seen⟩
  | @skipped _ rest _ file _ found known =>
      obtain ⟨snapshot, visited, split, seen⟩ := onTrack deploy _ found
      refine ⟨isPrefix, snapshot, visited ++ [file], ?_, ?_⟩
      · rw [split, List.append_cons]
      · exact List.append_subset.mpr ⟨seen, List.cons_subset.mpr
          ⟨snapshot known, List.nil_subset _⟩⟩
  | overtaken => exact ⟨isPrefix, trivial⟩
  | raised => exact ⟨isPrefix, trivial⟩
  | @applied _ rest _ file found _ new =>
      obtain ⟨snapshot, visited, split, seen⟩ := onTrack deploy _ found
      have reached : state.applied = visited := by
        refine prefix_eq_of_reached (split ▸ isPrefix) seen new ?_
        rw [← split]
        exact migrationFiles_nodup listed
      refine ⟨?_, List.Subset.trans snapshot (List.subset_append_left _ _), visited ++ [file],
        ?_, ?_⟩
      · rw [reached, split, List.append_cons visited file rest]
        exact List.prefix_append _ rest
      · rw [split, List.append_cons]
      · rw [reached]
        exact List.Subset.refl _
  | crashed => exact ⟨isPrefix, trivial⟩

theorem Ordered.step {directory files : List String} {state state' : Migrations}
    {event : MigrationEvent} (listed : migrationFiles directory = .ok files)
    (ordered : state.Ordered files) (taken : step directory state event = some state') :
    state'.Ordered files := by
  obtain ⟨deploy, applied, next, turn, rfl⟩ := step_turn taken
  obtain ⟨isPrefix, onTrack⟩ := ordered.turn listed turn
  refine ⟨isPrefix, ?_⟩
  intro other following found
  rw [Table.find?_set] at found
  split at found
  · rw [← Option.some.inj found]
    exact onTrack
  · exact (ordered.onTrack other following found).mono turn.applied_grows

/-! ## Deploys that do not overlap on a file -/

/-- No deploy waits for a file that is applied already, and none has been overtaken. -/
structure Undisturbed (state : Migrations) : Prop where
  awaited : ∀ deploy next file, state.deploys.find? deploy = some next → next.Awaits file →
    file ∉ state.applied
  notOvertaken : ∀ deploy file, state.deploys.find? deploy ≠ some (.overtaken file)

theorem Undisturbed.step {directory files : List String} {state state' : Migrations}
    {event : MigrationEvent} (listed : migrationFiles directory = .ok files)
    (ordered : state.Ordered files) (undisturbed : state.Undisturbed)
    (exclusive : state.Exclusive event) (taken : step directory state event = some state') :
    state'.Undisturbed := by
  obtain ⟨deploy, applied, next, turn, rfl⟩ := step_turn taken
  have own : (∀ file, next.Awaits file → file ∉ applied) ∧ ∀ file, next ≠ .overtaken file := by
    cases turn with
    | refused => exact ⟨fun _ => False.elim, nofun⟩
    | started => exact ⟨fun _ awaits => awaits.2, nofun⟩
    | returned => exact ⟨fun _ => False.elim, nofun⟩
    | skipped found =>
        refine ⟨fun file awaits => ?_, nofun⟩
        exact undisturbed.awaited deploy _ file found
          ⟨List.mem_cons_of_mem _ awaits.1, awaits.2⟩
    | overtaken found pending duplicate =>
        exact absurd duplicate
          (undisturbed.awaited deploy _ _ found ⟨List.mem_cons_self, pending⟩)
    | raised => exact ⟨fun _ => False.elim, nofun⟩
    | @applied _ rest _ file found pending new =>
        refine ⟨fun later awaits member => ?_, nofun⟩
        rcases List.mem_append.mp member with before | same
        · exact undisturbed.awaited deploy _ later found
            ⟨List.mem_cons_of_mem _ awaits.1, awaits.2⟩ before
        · obtain rfl := List.mem_singleton.mp same
          obtain ⟨_, visited, split, _⟩ := ordered.onTrack deploy _ found
          have distinct := migrationFiles_nodup listed
          rw [split] at distinct
          exact (List.nodup_cons.mp (List.nodup_append.mp distinct).2.1).1 awaits.1
    | crashed => exact ⟨fun _ => False.elim, nofun⟩
  constructor
  · intro other following file found awaits
    rw [Table.find?_set] at found
    split at found
    · obtain rfl := Option.some.inj found
      exact own.1 file awaits
    · rename_i different
      have before := undisturbed.awaited other following file found awaits
      cases turn with
      | applied foundOwn pending new =>
          intro member
          rcases List.mem_append.mp member with earlier | same
          · exact before earlier
          · obtain rfl := List.mem_singleton.mp same
            have entry := Table.find?_eq_some_iff.mp found
            exact exclusive _ foundOwn _ (if_neg pending) _ entry different awaits
      | _ => exact before
  · intro other file found
    rw [Table.find?_set] at found
    split at found
    · exact own.2 file (Option.some.inj found)
    · exact undisturbed.notOvertaken other file found

/-! ## Concurrent deploys -/

section Runs

variable {directory files before : List String}

theorem run_ordered (listed : migrationFiles directory = .ok files) (isPrefix : before <+: files)
    {events : List MigrationEvent} {state : Migrations}
    (ran : (system directory before).exec (fresh before) events = some state) :
    state.Ordered files := by
  refine System.exec_preserves (Ordered files) ?_ ran ⟨isPrefix, nofun⟩
  intro earlier event later ordered taken
  exact ordered.step listed taken

theorem Ordered.complete {state : Migrations} (ordered : state.Ordered files)
    {deploy : Nat} {newlyApplied : List String}
    (found : state.deploys.find? deploy = some (.returned newlyApplied))
    (distinct : files.Nodup) : state.applied = files := by
  have all : files ⊆ state.applied := ordered.onTrack deploy _ found
  have longer := (List.subperm_of_subset distinct all).length_le
  exact ordered.isPrefix.eq_of_length_le longer

/-- Concurrent deploys are safe in every run in which no file is applied while another
deploy waits for it: the files are committed once and in order, and no deploy fails
because of another. -/
theorem deploys_safe (listed : migrationFiles directory = .ok files)
    (isPrefix : before <+: files) (events : List MigrationEvent)
    (exclusive : (system directory before).Meets Exclusive (fresh before) events) :
    files.Pairwise (· < ·) ∧
    ∀ past future state, events = past ++ future →
      (system directory before).exec (fresh before) past = some state → state.Safe files := by
  refine ⟨migrationFiles_sorted listed, ?_⟩
  rintro past future state rfl ran
  have early := ((System.meets_append ran).mp exclusive).1
  have start : (fresh before).Ordered files ∧ (fresh before).Undisturbed :=
    ⟨⟨isPrefix, nofun⟩, ⟨nofun, nofun⟩⟩
  obtain ⟨ordered, undisturbed⟩ : state.Ordered files ∧ state.Undisturbed := by
    refine System.exec_keeps (fun state => state.Ordered files ∧ state.Undisturbed) ?_ ran
      early start
    rintro earlier event later ⟨ordered, undisturbed⟩ allowed taken
    exact ⟨ordered.step listed taken, undisturbed.step listed ordered allowed taken⟩
  exact ⟨ordered.isPrefix,
    fun deploy newlyApplied found => ordered.complete found (migrationFiles_nodup listed),
    undisturbed.notOvertaken⟩

/-- A deploy that waits for an applied file fails if it only goes on. -/
theorem awaiting_overtaken {state : Migrations} {deploy : Nat} {next : Deploy} {file : String}
    (found : state.deploys.find? deploy = some next) (awaits : next.Awaits file)
    (duplicate : file ∈ state.applied) :
    ∃ rounds final other, (system directory before).exec state
        (List.replicate rounds (.round deploy (.ok ()))) = some final ∧
      final.deploys.find? deploy = some (.overtaken other) := by
  cases next with
  | looping applied remaining newlyApplied =>
      obtain ⟨ahead, pending⟩ := awaits
      induction remaining generalizing state newlyApplied with
      | nil => cases ahead
      | cons head rest ih =>
          -- one round, and then the rounds of the deploy it leaves
          have goesOn : ∀ {state' newlyApplied'},
              step directory state (.round deploy (.ok ())) = some state' →
              state'.deploys.find? deploy = some (.looping applied rest newlyApplied') →
              file ∈ state'.applied → file ∈ rest → ∃ rounds final other,
                (system directory before).exec state
                    (List.replicate rounds (.round deploy (.ok ()))) = some final ∧
                  final.deploys.find? deploy = some (.overtaken other) := by
            intro state' newlyApplied' taken found' duplicate' ahead'
            obtain ⟨rounds, final, other, ran, overtaken⟩ :=
              ih duplicate' newlyApplied' found' ahead'
            exact ⟨rounds + 1, final, other, System.exec_cons.mpr ⟨state', taken, ran⟩, overtaken⟩
          by_cases known : head ∈ applied
          · have taken : step directory state (.round deploy (.ok ())) = some { state with
                deploys := state.deploys.set deploy (.looping applied rest newlyApplied) } := by
              simp only [step, found, if_pos known]
            refine goesOn taken (by rw [Table.find?_set, if_pos rfl]) duplicate ?_
            rcases List.mem_cons.mp ahead with rfl | later
            · exact absurd known pending
            · exact later
          · by_cases done : head ∈ state.applied
            · have taken : step directory state (.round deploy (.ok ())) = some { state with
                  deploys := state.deploys.set deploy (.overtaken head) } := by
                simp only [step, found, if_neg known, applyFile, if_pos done]
              exact ⟨1, _, head, System.exec_cons.mpr ⟨_, taken, rfl⟩,
                by rw [Table.find?_set, if_pos rfl]⟩
            · have taken : step directory state (.round deploy (.ok ())) = some
                  { applied := state.applied ++ [head],
                    deploys := state.deploys.set deploy
                      (.looping applied rest (newlyApplied ++ [head])) } := by
                simp only [step, found, if_neg known, applyFile, if_neg done]
              refine goesOn taken (by rw [Table.find?_set, if_pos rfl])
                (List.mem_append_left _ duplicate) ?_
              rcases List.mem_cons.mp ahead with rfl | later
              · exact absurd duplicate done
              · exact later
  | returned newlyApplied => exact awaits.elim
  | raised error => exact awaits.elim
  | overtaken other => exact awaits.elim
  | crashed => exact awaits.elim

end Runs

/-- Two deploys read the empty table before either of them applies the only file. -/
def bothRead : List MigrationEvent :=
  [.start 1, .start 2, .round 1 (.ok ()), .round 2 (.ok ())]

/-- The second of them fails because the first one applied its file. -/
theorem second_deploy_overtaken :
    migrationFiles ["README.md", "001_schema.sql"] = .ok ["001_schema.sql"] ∧
    ∃ state, (system ["README.md", "001_schema.sql"] []).exec (fresh []) bothRead = some state ∧
      ¬ state.Safe ["001_schema.sql"] := by
  let final : Migrations :=
    ((system ["README.md", "001_schema.sql"] []).exec (fresh []) bothRead).getD (fresh [])
  refine ⟨by decide +kernel, final, by decide +kernel, fun safe => ?_⟩
  exact safe.undisturbed 2 "001_schema.sql" (by decide +kernel)

/-- A deploy dies after its first file, and the next one applies what is left. -/
def oneAfterAnother : List MigrationEvent :=
  [.start 1, .round 1 (.ok ()), .crash 1, .start 2, .round 2 (.ok ()), .round 2 (.ok ()),
    .round 2 (.ok ())]

theorem one_after_another_safe :
    ∃ state, (system ["002_b.sql", "001_a.sql"] []).exec (fresh []) oneAfterAnother =
        some state ∧
      state.deploys.find? 2 = some (.returned ["002_b.sql"]) ∧
      state.Safe ["001_a.sql", "002_b.sql"] := by
  let final : Migrations :=
    ((system ["002_b.sql", "001_a.sql"] []).exec (fresh []) oneAfterAnother).getD (fresh [])
  have ran : (system ["002_b.sql", "001_a.sql"] []).exec (fresh []) oneAfterAnother =
      some final := by decide +kernel
  refine ⟨final, ran, by decide +kernel, ?_⟩
  exact (deploys_safe (by decide +kernel) List.nil_prefix oneAfterAnother
    (by decide +kernel)).2 oneAfterAnother [] final (List.append_nil _).symm ran

end Migrations

end ProductionRag
