import Telemetry.Proofs.Files
import Telemetry.Snapshot.Basic

namespace Telemetry.Snapshot

open Files (IsName join)

structure Place where
  directories : List String
  name : String
  named : ∀ part ∈ directories ++ [name], IsName part

def Place.path (place : Place) : String := join (place.directories ++ [place.name])

/-- A snapshot can be put at a place: no file is in the way, and no directory where it is written.
-/
structure Hosts (files : Files) (place : Place) : Prop where
  clear : ∀ front, front <+: place.directories → front ≠ [] →
    ∀ bytes, files.node? (join front) ≠ some (.file bytes)
  target : files.node? place.path ≠ some .directory
  beside : files.node? (temporary place.path) ≠ some .directory

theorem isName_temporary {name : String} (named : IsName name) : IsName (name ++ ".tmp") := by
  have long : ∀ other : String, other.length < 4 → name ++ ".tmp" ≠ other := by
    rintro other short rfl
    have suffix : ".tmp".length = 4 := rfl
    rw [String.length_append, suffix] at short
    omega
  refine ⟨long _ (by decide), long _ (by decide), long _ (by decide), ?_⟩
  rw [String.toList_append, List.mem_append, not_or]
  exact ⟨named.noSlash, by decide⟩

variable {files next : Files} {place : Place} {bytes : Bytes} {step : Step} {rest : List Step}

theorem named_temporary (place : Place) :
    ∀ part ∈ place.directories ++ [place.name ++ ".tmp"], IsName part := by
  have named := place.named
  simp only [List.forall_mem_append, List.forall_mem_singleton] at named ⊢
  exact ⟨named.1, isName_temporary named.2⟩

theorem temporary_path (place : Place) :
    temporary place.path = join (place.directories ++ [place.name ++ ".tmp"]) :=
  (Files.join_suffix ..).symm

theorem hosts_differ (place : Place) :
    place.directories ++ [place.name ++ ".tmp"] ≠ place.directories ++ [place.name] := by
  intro same
  have names := List.singleton_inj.1 (List.append_cancel_left same)
  have length := congrArg String.length names
  have suffix : ".tmp".length = 4 := rfl
  rw [String.length_append, suffix] at length
  omega

theorem named_front {front : List String} (part : front <+: place.directories) :
    ∀ name ∈ front, IsName name :=
  fun name member => place.named name (List.mem_append_left _ (part.subset member))

theorem front_ne {front : List String} (part : front <+: place.directories) (name : String) :
    front ≠ place.directories ++ [name] := by
  rintro rfl
  have length := part.length_le
  rw [List.length_append, List.length_singleton] at length
  omega

theorem not_front (place : Place) (name : String) :
    ¬ place.directories ++ [name] <+: place.directories :=
  fun part => front_ne part name rfl

theorem node?_set_temporary (files : Files) (place : Place) (node : Node) :
    (files.set (temporary place.path) node).node? place.path = files.node? place.path := by
  rw [temporary_path]
  exact Files.node?_set_of_ne (named_temporary place) place.named (hosts_differ place).symm node

theorem Hosts.set_temporary (hosts : Hosts files place) (bytes : Bytes) :
    Hosts (files.set (temporary place.path) (.file bytes)) place where
  clear front part some := by
    rw [temporary_path,
      Files.node?_set_of_ne (named_temporary place) (named_front part) (front_ne part _)]
    exact hosts.clear front part some
  target := by
    rw [node?_set_temporary]
    exact hosts.target
  beside := by simp [Files.node?_set_self]

theorem Hosts.makeDirectories (hosts : Hosts files place) (some : place.directories ≠ []) :
    ∃ made, files.makeDirectories (join place.directories) = .ok made ∧ Hosts made place ∧
      made.node? place.path = files.node? place.path ∧
      made.node? (temporary place.path) = files.node? (temporary place.path) := by
  have named := place.named
  simp only [List.forall_mem_append] at named
  obtain ⟨made, makes, directories, frame⟩ := Files.makeDirectories_ok some named.1 hosts.clear
  have target : made.node? place.path = files.node? place.path :=
    frame _ place.named (not_front place _)
  have beside : made.node? (temporary place.path) = files.node? (temporary place.path) := by
    rw [temporary_path]
    exact frame _ (named_temporary place) (not_front place _)
  refine ⟨made, makes, ⟨?_, target ▸ hosts.target, beside ▸ hosts.beside⟩, target, beside⟩
  intro front part some bytes
  rw [directories front part some]
  nofun

theorem Hosts.rename (hosts : Hosts files place)
    (filled : files.node? (temporary place.path) = some (.file bytes)) :
    ∃ moved, files.rename (temporary place.path) place.path = .ok moved ∧ Hosts moved place ∧
      moved.node? place.path = some (.file bytes) := by
  have others : ∀ others : List String, (∀ part ∈ others, IsName part) →
      others ≠ place.directories ++ [place.name] →
        others ≠ place.directories ++ [place.name ++ ".tmp"] →
      ((files.remove (temporary place.path)).set place.path (.file bytes)).node? (join others) =
        files.node? (join others) := by
    intro others named notTarget notBeside
    rw [Place.path, Files.node?_set_of_ne place.named named notTarget, ← Place.path, temporary_path,
      Files.node?_remove_of_ne (named_temporary place) named notBeside]
  refine ⟨_, Files.rename_ok filled hosts.target, ⟨?_, ?_, ?_⟩, Files.node?_set_self _ _⟩
  · intro front part some
    rw [others front (named_front part) (front_ne part _) (front_ne part _)]
    exact hosts.clear front part some
  · simp [Files.node?_set_self]
  · have beside := Files.node?_remove_self files (temporary place.path)
    rw [temporary_path] at beside ⊢
    rw [Place.path, Files.node?_set_of_ne place.named (named_temporary place) (hosts_differ place),
      beside]
    nofun

def puts (path : String) (bytes : Bytes) : List Step :=
  [.create (temporary path), .write (temporary path) bytes, .sync (temporary path),
    .rename (temporary path) path]

inductive Upcoming (path : String) (bytes : Bytes) : Step → List Step → Prop
  | directories {parent : String} (above : Files.parent? path = some parent) :
      Upcoming path bytes (.makeDirectories parent) (puts path bytes)
  | create : Upcoming path bytes (.create (temporary path)) (puts path bytes).tail
  | write : Upcoming path bytes (.write (temporary path) bytes) ((puts path bytes).drop 2)
  | sync : Upcoming path bytes (.sync (temporary path)) ((puts path bytes).drop 3)
  | rename : Upcoming path bytes (.rename (temporary path) path) []

theorem upcoming_of_suffix {path : String} (part : step :: rest <:+ steps path bytes) :
    Upcoming path bytes step rest := by
  have inside : step :: rest <:+ puts path bytes → Upcoming path bytes step rest := by
    intro part
    simp only [puts, List.suffix_cons_iff, List.cons.injEq] at part
    rcases part with ⟨rfl, rfl⟩ | ⟨rfl, rfl⟩ | ⟨rfl, rfl⟩ | ⟨rfl, rfl⟩ | none
    · exact .create
    · exact .write
    · exact .sync
    · exact .rename
    · simp at none
  unfold steps at part
  cases above : Files.parent? path with
  | none =>
    rw [above] at part
    exact inside part
  | some parent =>
    rw [above] at part
    rcases List.suffix_cons_iff.1 part with same | part
    · cases same
      exact .directories above
    · exact inside part

theorem steps_eq (place : Place) (bytes : Bytes) :
    steps place.path bytes =
      if place.directories = [] then puts place.path bytes
      else .makeDirectories (join place.directories) :: puts place.path bytes := by
  rw [steps, Place.path, Files.parent?_join place.named]
  by_cases top : place.directories = []
  · rw [if_pos top, if_pos top]
    rfl
  · rw [if_neg top, if_neg top]
    rfl

/-- What a save needs for the steps that it has left: once it has written its file beside the other
one, that this is still there. -/
structure Ready (place : Place) (bytes : Bytes) (files : Files) (rest : List Step) : Prop where
  hosts : Hosts files place
  part : rest <:+ steps place.path bytes
  filled : .write (temporary place.path) bytes ∉ rest → rest ≠ [] →
    files.node? (temporary place.path) = some (.file bytes)

inductive Comes (place : Place) (bytes : Bytes) : Step → List Step → Prop
  | directories (some : place.directories ≠ []) :
      Comes place bytes (.makeDirectories (join place.directories)) (puts place.path bytes)
  | create : Comes place bytes (.create (temporary place.path)) (puts place.path bytes).tail
  | write : Comes place bytes (.write (temporary place.path) bytes) ((puts place.path bytes).drop 2)
  | sync : Comes place bytes (.sync (temporary place.path)) ((puts place.path bytes).drop 3)
  | rename : Comes place bytes (.rename (temporary place.path) place.path) []

theorem comes_of_suffix (part : step :: rest <:+ steps place.path bytes) :
    Comes place bytes step rest := by
  cases upcoming_of_suffix part with
  | directories above =>
    rw [Place.path, Files.parent?_join place.named] at above
    split at above
    · cases above
    · rename_i some
      cases above
      exact .directories some
  | create => exact .create
  | write => exact .write
  | sync => exact .sync
  | rename => exact .rename

structure Advances (place : Place) (bytes : Bytes) (files : Files) (rest : List Step)
    (next : Files) : Prop where
  ready : Ready place bytes next rest
  /-- Only the last step replaces the file. -/
  target : next.node? place.path = if rest = [] then some (.file bytes) else files.node? place.path
  /-- Only steps from the creation on touch the file beside it. -/
  beside : .create (temporary place.path) ∈ rest →
    next.node? (temporary place.path) = files.node? (temporary place.path)

theorem Ready.advances (ready : Ready place bytes files (step :: rest)) :
    ∃ next, step.run files = .ok next ∧ Advances place bytes files rest next := by
  have part : rest <:+ steps place.path bytes := (List.suffix_cons step rest).trans ready.part
  have hosts := ready.hosts
  cases comes_of_suffix ready.part with
  | directories some =>
    obtain ⟨made, makes, hosts, target, beside⟩ := hosts.makeDirectories some
    exact ⟨made, makes, ⟨hosts, part, by simp [puts]⟩, target, fun _ => beside⟩
  | create =>
    refine ⟨_, Files.create_ok hosts.beside, ⟨hosts.set_temporary [], part, by simp [puts]⟩, ?_, by
      simp [puts]⟩
    exact node?_set_temporary files place _
  | write =>
    refine ⟨_, rfl, ⟨hosts.set_temporary bytes, part, ?_⟩, node?_set_temporary files place _, by
      simp [puts]⟩
    exact fun _ _ => Files.node?_set_self _ _
  | sync =>
    have filled := ready.filled (by simp [puts]) (List.cons_ne_nil _ _)
    exact ⟨files, rfl, ⟨hosts, part, fun _ _ => filled⟩, rfl, fun _ => rfl⟩
  | rename =>
    obtain ⟨moved, moves, hosts, landed⟩ :=
      hosts.rename (ready.filled (by simp) (List.cons_ne_nil _ _))
    exact ⟨moved, moves, ⟨hosts, part, by simp⟩, landed, nofun⟩

theorem Hosts.ready (hosts : Hosts files place) (bytes : Bytes) :
    Ready place bytes files (steps place.path bytes) where
  hosts := hosts
  part := List.suffix_refl _
  filled unwritten := absurd (by simp [steps]) unwritten

theorem Ready.runs (ready : Ready place bytes files rest) (some : rest ≠ []) :
    ∃ after, runSteps rest files = (.ok (), after) ∧ Hosts after place ∧
      after.node? place.path = .some (.file bytes) := by
  induction rest generalizing files with
  | nil => exact absurd rfl some
  | cons step rest ih =>
    obtain ⟨next, runs, advances⟩ := ready.advances
    by_cases last : rest = []
    · subst last
      refine ⟨next, ?_, advances.ready.hosts, advances.target⟩
      simp only [runSteps, runs]
    · obtain ⟨after, steps, landed⟩ := ih advances.ready last
      refine ⟨after, ?_, landed⟩
      simp only [runSteps, runs, steps]

theorem save_eq (path : String) (contents : Contents) (files : Files) :
    save path (.ok contents) files =
      ((runSteps (steps path (Snapshot.bytes contents)) files).1.map fun _ => contents.size,
        (runSteps (steps path (Snapshot.bytes contents)) files).2) := by
  unfold save
  dsimp only
  generalize runSteps (steps path (Snapshot.bytes contents)) files = outcome
  obtain ⟨fault | ⟨⟩, after⟩ := outcome <;> rfl

theorem save_ok (hosts : Hosts files place) (contents : Contents) :
    ∃ after, save place.path (.ok contents) files = (.ok contents.size, after) ∧ Hosts after place ∧
      after.node? place.path = some (.file (Snapshot.bytes contents)) := by
  obtain ⟨after, written, landed⟩ := (hosts.ready (Snapshot.bytes contents)).runs (by simp [steps])
  refine ⟨after, ?_, landed⟩
  rw [save_eq, written]
  rfl

end Telemetry.Snapshot
