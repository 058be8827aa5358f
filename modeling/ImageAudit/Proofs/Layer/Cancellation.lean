import ImageAudit.Proofs.Fixture.Layer
import ImageAudit.Proofs.Layer.Staged
import Mathlib.Logic.Relation

/-! # Scans that are told to stop

A scan that is told to stop gives all that it would have given, or fails; it never gives a part.
For that it is compared, step by step, with the scan that is never told.

The signal is looked for between reads of the archive, and each read that reads anything begins
where the one before it ended, or further on. So a signal that is given during a read can be told by
the offset where that read begins, and stays given.

The scan gets from entry to entry in turns. After the signal was given it stops at the first entry
whose number is due or that would be set aside. So it sets nothing more aside, and the turns that it
still takes all lie between two numbers that are due.
-/

namespace ImageAudit

open Stateful

namespace Tar

/-- No read began beyond what was read. -/
def Reader.IsOrderly (reader : Reader) : Prop :=
  ∀ start, reader.lastRead = some start → start ≤ reader.position

theorem Reader.isOrderly_new (stream : ByteStream) : (new stream).IsOrderly := nofun

/-- A read that reads anything begins where the one before it ended, or further on. -/
theorem Reading.lastRead_of_take {reader final : Reader} {count : Nat} {read : Bytes}
    (ran : take count reader = (.ok read, final)) :
    final = reader ∨ ∃ start, final.lastRead = some start ∧ reader.position ≤ start ∧
      start ≤ final.position := by
  by_cases nothing : count = 0
  · subst nothing
    cases ran
    exact .inl rfl
  · rw [take_apply nothing] at ran
    split at ran
    · cases ran
    · cases ran
      refine .inr ⟨_, rfl, ?_, ?_⟩
      · split <;> omega
      · unfold after
        dsimp only
        split <;> omega

theorem keptByReading_isOrderly : KeptByReading Reader.IsOrderly where
  take count := by
    intro reader read final orderly ran
    obtain rfl | ⟨start, began, -, within⟩ := Reading.lastRead_of_take ran
    · exact orderly
    · intro other began'
      rw [began] at began'
      cases began'
      exact within
  next _ _ orderly := orderly

end Tar

/-- The signal was given, and stays given. -/
structure StopSignal.Stands (signal : StopSignal) (reader : Tar.Reader) : Prop where
  isGiven : signal.isGiven reader = true
  orderly : reader.IsOrderly

/-- A later read does not take a signal back. -/
theorem StopSignal.isGiven_of_le {signal : StopSignal} {reader final : Tar.Reader} {start : Nat}
    (stands : signal.Stands reader) (began : final.lastRead = some start)
    (later : reader.position ≤ start) : signal.isGiven final = true := by
  have given := stands.isGiven
  cases signal with
  | never => cases given
  | before => rfl
  | fromRead offset =>
    simp only [isGiven] at given ⊢
    cases earlier : reader.lastRead with
    | none =>
      rw [earlier] at given
      cases given
    | some start' =>
      rw [earlier, decide_eq_true_eq] at given
      have within := stands.orderly start' earlier
      rw [began, decide_eq_true_eq]
      omega

theorem StopSignal.keptByReading_stands (signal : StopSignal) :
    Tar.KeptByReading signal.Stands where
  take count := by
    intro reader read final stands ran
    refine ⟨?_, Tar.keptByReading_isOrderly.take count stands.orderly ran⟩
    obtain rfl | ⟨start, began, later, -⟩ := Tar.Reading.lastRead_of_take ran
    · exact stands.isGiven
    · exact isGiven_of_le stands began later
  next _ _ stands := ⟨stands.isGiven, stands.orderly⟩

namespace Layer

/-- The same layer under a scan that is never told to stop. -/
def ScanSite.unstopped (site : ScanSite) : ScanSite := { site with signal := .never }

section Follows

variable {α β : Type}

/-- The step does what the other one does, unless it stops the scan. -/
def Scanning.Follows (step step' : Scanning α) : Prop :=
  ∀ state, step state = step' state ∨ (step state).1 = .error .cancelled

theorem Scanning.follows_refl (step : Scanning α) : Follows step step := fun _ => .inl rfl

theorem Scanning.Follows.bind {first first' : Scanning α} {rest rest' : α → Scanning β}
    (follows : Follows first first') (follows' : ∀ value, Follows (rest value) (rest' value)) :
    Follows (first >>= rest) (first' >>= rest') := by
  intro state
  rw [bind_apply, bind_apply]
  rcases follows state with same | stopped
  · rw [← same]
    cases first state with
    | mk outcome between =>
      cases outcome with
      | ok value => exact follows' value between
      | error failure => exact .inl rfl
  · right
    cases ran : first state with
    | mk outcome between =>
      rw [ran] at stopped
      cases stopped
      rfl

namespace ScanSite

variable (site : ScanSite)

/-- A scan that was told to stop does so. -/
theorem poll_eq_ite (state : ScanState) :
    site.poll state =
      (if site.signal.isGiven state.reader then .error .cancelled else .ok (), state) := by
  rw [poll, bind_apply, get_apply]
  dsimp only
  split <;> rfl

/-- A scan that was told to stop does so at every 256th entry. -/
theorem pollAt_eq_ite (number : Nat) (state : ScanState) :
    site.pollAt number state =
      (if 256 ∣ number ∧ site.signal.isGiven state.reader then .error .cancelled else .ok (),
        state) := by
  unfold pollAt pollInterval
  by_cases due : 256 ∣ number
  · rw [if_pos (Nat.mod_eq_zero_of_dvd due), poll_eq_ite]
    simp only [due, true_and]
  · rw [if_neg fun turn => due (Nat.dvd_of_mod_eq_zero turn), if_neg fun both => due both.1]
    rfl

theorem follows_poll : Scanning.Follows site.poll site.unstopped.poll := by
  intro state
  have never : site.unstopped.signal = .never := rfl
  rw [poll_apply never, poll_eq_ite]
  split
  · exact .inr rfl
  · exact .inl rfl

theorem follows_pollAt (number : Nat) :
    Scanning.Follows (site.pollAt number) (site.unstopped.pollAt number) := by
  intro state
  have never : site.unstopped.signal = .never := rfl
  rw [pollAt_apply never, pollAt_eq_ite]
  split
  · exact .inr rfl
  · exact .inl rfl

theorem follows_gatherFile (gathered : Gathered) (entry : Tar.Entry) (path : String) :
    Scanning.Follows (site.gatherFile gathered entry path)
      (site.unstopped.gatherFile gathered entry path) := by
  refine (Scanning.follows_refl _).bind fun mode => ?_
  by_cases database : entry.kind = .regular ∧ Rpm.isDatabaseFile path
  · rw [if_pos database, if_pos database]
    exact site.follows_poll.bind fun _ => Scanning.follows_refl _
  · rw [if_neg database, if_neg database]
    exact Scanning.follows_refl _

theorem follows_gather (gathered : Gathered) (entry : Tar.Entry) :
    Scanning.Follows (site.gather gathered entry) (site.unstopped.gather gathered entry) := by
  unfold gather
  cases Member.ofEntry entry.kind entry.path with
  | file path => exact site.follows_gatherFile gathered entry path
  | _ => exact Scanning.follows_refl _

theorem follows_gatherFrom (fuel number : Nat) (gathered : Gathered) :
    Scanning.Follows (site.gatherFrom fuel number gathered)
      (site.unstopped.gatherFrom fuel number gathered) := by
  induction fuel generalizing number gathered with
  | zero => exact Scanning.follows_refl _
  | succ fuel ih =>
    refine (Scanning.follows_refl _).bind fun outcome => ?_
    match outcome with
    | .ok none => exact Scanning.follows_refl _
    | .ok (some entry) =>
      exact (site.follows_pollAt number).bind fun _ =>
        (site.follows_gather gathered entry).bind fun next => ih (number + 1) next
    | .error fault => exact (site.follows_pollAt number).bind fun _ => Scanning.follows_refl _

theorem follows_gatherAll (stream : ByteStream) :
    Scanning.Follows (site.gatherAll stream) (site.unstopped.gatherAll stream) :=
  site.follows_gatherFrom _ _ _

end ScanSite

theorem scan_of_gatherAll {site : ScanSite} {stream : ByteStream} {staged : FileTree}
    {outcome : Except Failure Gathered} {final : ScanState}
    (ran : site.gatherAll stream ⟨Tar.Reader.new stream, staged⟩ = (outcome, final)) :
    scan site stream staged =
      (outcome.bind fun gathered => site.decode gathered final.staged, final.staged) := by
  unfold scan
  rw [ran]

/-- A scan gives what it gives without the signal, or fails for the signal. -/
theorem scan_follows (site : ScanSite) (stream : ByteStream) (staged : FileTree) :
    scan site stream staged = scan site.unstopped stream staged ∨
      (scan site stream staged).1 = .error .cancelled := by
  have follows := site.follows_gatherAll stream ⟨Tar.Reader.new stream, staged⟩
  cases ran : site.gatherAll stream ⟨Tar.Reader.new stream, staged⟩ with
  | mk outcome final =>
    rcases follows with same | stopped
    · left
      rw [scan_of_gatherAll ran, scan_of_gatherAll (same.symm.trans ran)]
      rfl
    · right
      rw [ran] at stopped
      cases stopped
      rw [scan_of_gatherAll ran]
      rfl

end Follows

/-- Where a scan stands between two entries. -/
structure Juncture where
  /-- The number of the entry that comes next. -/
  number : Nat
  gathered : Gathered
  state : ScanState

namespace Juncture

/-- Before the first entry. -/
def start (stream : ByteStream) (staged : FileTree) : Juncture :=
  ⟨0, .empty, ⟨Tar.Reader.new stream, staged⟩⟩

/-- The archive goes on here with an entry, or with a fault in its place. -/
def ComesUpon (point : Juncture) (found : Except Tar.Fault Tar.Entry) (opened : ScanState) : Prop :=
  Scanning.attempt Tar.next? point.state = (.ok (found.map some), opened)

/-- The entry that the archive goes on with here, if there is one. -/
def found? (point : Juncture) : Option (Tar.Entry × ScanState) :=
  match Scanning.attempt Tar.next? point.state with
  | (.ok (.ok (some entry)), opened) => some (entry, opened)
  | _ => none

end Juncture

namespace ScanSite

variable (site : ScanSite)

/-- The scan takes an entry up: it comes upon it and does not stop there because of its number. -/
structure TakesUp (point : Juncture) (entry : Tar.Entry) (opened : ScanState) : Prop where
  comesUpon : point.ComesUpon (.ok entry) opened
  goesOn : site.pollAt point.number opened = (.ok (), opened)

/-- The scan takes one entry up and gathers it. -/
inductive Turn : Juncture → Juncture → Prop where
  | mk {point : Juncture} {entry : Tar.Entry} {opened between : ScanState} {next : Gathered}
      (takesUp : site.TakesUp point entry opened)
      (gathers : site.gather point.gathered entry opened = (.ok next, between)) :
      Turn point ⟨point.number + 1, next, between⟩

/-- The turn that the scan takes here, if it takes one. -/
def turn? (point : Juncture) : Option Juncture :=
  point.found?.bind fun found =>
    match (site.pollAt point.number >>= fun _ => site.gather point.gathered found.1) found.2 with
    | (.ok next, between) => some ⟨point.number + 1, next, between⟩
    | _ => none

/-- From one juncture the scan gets to the other. -/
def GetsTo : Juncture → Juncture → Prop := Relation.ReflTransGen site.Turn

end ScanSite

section Junctures

variable {site : ScanSite} {point next later : Juncture} {found : Except Tar.Fault Tar.Entry}
variable {entry : Tar.Entry} {opened : ScanState}

/-- What is found at a juncture is determined by it. -/
theorem Juncture.ComesUpon.unique {found' : Except Tar.Fault Tar.Entry} {opened' : ScanState}
    (comes : point.ComesUpon found opened) (comes' : point.ComesUpon found' opened') :
    found' = found ∧ opened' = opened := by
  have same := comes.symm.trans comes'
  cases found <;> cases found' <;> cases same <;> exact ⟨rfl, rfl⟩

theorem Juncture.found?_eq_some_iff :
    point.found? = some (entry, opened) ↔ point.ComesUpon (.ok entry) opened := by
  unfold found? ComesUpon
  constructor
  · intro found
    split at found
    · rename_i read
      cases found
      exact read
    · cases found
  · intro comes
    rw [comes]
    rfl

theorem ScanSite.turn?_eq_some_iff : site.turn? point = some next ↔ site.Turn point next := by
  rw [turn?, Option.bind_eq_some_iff]
  constructor
  · rintro ⟨⟨entry, opened⟩, found, turned⟩
    split at turned
    · rename_i gathered between ran
      obtain ⟨⟨⟩, polled, goesOn, gathers⟩ := bind_eq_ok_iff.mp ran
      obtain rfl := pollAt_eq_ok goesOn
      cases turned
      exact .mk ⟨Juncture.found?_eq_some_iff.mp found, goesOn⟩ gathers
    · cases turned
  · intro turn
    cases turn with
    | mk takesUp gathers =>
      refine ⟨_, Juncture.found?_eq_some_iff.mpr takesUp.comesUpon, ?_⟩
      dsimp only
      rw [bind_apply, takesUp.goesOn]
      dsimp only
      rw [gathers]

/-- Reading on leaves what was set aside. -/
theorem Juncture.exists_opened (point : Juncture) :
    ∃ opened : ScanState, opened.staged = point.state.staged ∧
      (Scanning.attempt Tar.next? point.state = (.ok (.ok none), opened) ∨
        (∃ fault, point.ComesUpon (.error fault) opened) ∨
        ∃ entry, point.ComesUpon (.ok entry) opened) := by
  refine ⟨(Scanning.attempt Tar.next? point.state).2, rfl, ?_⟩
  unfold ComesUpon Scanning.attempt
  cases Tar.next? point.state.reader with
  | mk outcome reader =>
    match outcome with
    | .ok none => exact .inl rfl
    | .error fault => exact .inr (.inl ⟨fault, rfl⟩)
    | .ok (some entry) => exact .inr (.inr ⟨entry, rfl⟩)

section Kept

variable {holds : Tar.Reader → Prop} (kept : Tar.KeptByReading holds)
include kept

theorem Juncture.ComesUpon.keeps (comes : point.ComesUpon (.ok entry) opened)
    (before : holds point.state.reader) : holds opened.reader :=
  kept.next? before (Scanning.outcome_of_attempt comes)

theorem ScanSite.gather_keeps {gathered result : Gathered} {between : ScanState}
    (ran : site.gather gathered entry opened = (.ok result, between))
    (before : holds opened.reader) : holds between.reader := by
  obtain ⟨count, -, read, taken⟩ := (gather_eq_ok ran).2
  exact kept.take count before taken

/-- What reading keeps is kept from one juncture to another. -/
theorem ScanSite.GetsTo.keeps (getsTo : site.GetsTo point later)
    (before : holds point.state.reader) : holds later.state.reader := by
  induction getsTo with
  | refl => exact before
  | tail _ turn ih =>
    cases turn with
    | mk takesUp gathers => exact gather_keeps kept gathers (takesUp.comesUpon.keeps kept ih)

end Kept

/-- A turn takes the scan from one juncture to the next, and a block of the archive at least. -/
theorem ScanSite.Turn.gatherFrom_eq (turn : site.Turn point next) (fuel : Nat) :
    site.gatherFrom (fuel + 1) point.number point.gathered point.state =
      site.gatherFrom fuel next.number next.gathered next.state ∧
    next.state.left + Tar.blockSize ≤ point.state.left := by
  cases turn with
  | mk takesUp gathers =>
    constructor
    · rw [gatherFrom_of_entry takesUp.comesUpon, bind_apply, takesUp.goesOn]
      dsimp only
      rw [bind_apply, gathers]
    · have opens := Scanning.left_of_attempt takesUp.comesUpon
      have gathered := (site.lowers_gather _ _).le gathers
      dsimp only
      omega

/-- The scan goes on from the junctures that it gets to, with fuel for what is left. -/
theorem ScanSite.GetsTo.exists_gatherFrom (getsTo : site.GetsTo point later) {fuel : Nat}
    (enough : point.state.left < fuel * Tar.blockSize) :
    ∃ fuel', later.state.left < fuel' * Tar.blockSize ∧
      site.gatherFrom fuel point.number point.gathered point.state =
        site.gatherFrom fuel' later.number later.gathered later.state := by
  -- Each turn takes one from the fuel, and a block at least from what is left.
  induction getsTo with
  | refl => exact ⟨fuel, enough, rfl⟩
  | tail _ turn ih =>
    obtain ⟨fuel', enough', same⟩ := ih
    cases fuel' with
    | zero => omega
    | succ fuel' =>
      obtain ⟨goesOn, less⟩ := turn.gatherFrom_eq fuel'
      rw [Nat.succ_mul] at enough'
      exact ⟨fuel', by omega, same.trans goesOn⟩

end Junctures

/-- A regular file of a package database, with a mode. -/
structure IsSetAside (entry : Tar.Entry) : Prop where
  regular : entry.kind = .regular
  isDatabaseFile : Rpm.isDatabaseFile (Path.normalize (Utf8.lossy entry.path)) = true
  hasMode : entry.header.mode?.isSome = true

theorem IsSetAside.meaning {entry : Tar.Entry} (setAside : IsSetAside entry) :
    Member.ofEntry entry.kind entry.path = .file (Path.normalize (Utf8.lossy entry.path)) := by
  have here : IsRegularAt (Path.normalize (Utf8.lossy entry.path)) ⟨entry, []⟩ :=
    ⟨setAside.regular, rfl⟩
  exact here.meaning (Rpm.isDatabaseFile_iff.mp setAside.isDatabaseFile)

section Given

variable {site : ScanSite} {state : ScanState} {gathered : Gathered} {entry : Tar.Entry}

/-- A file of a package database stops a scan that was told to stop. -/
theorem ScanSite.gather_of_isSetAside (setAside : IsSetAside entry)
    (given : site.signal.isGiven state.reader = true) :
    site.gather gathered entry state = (.error .cancelled, state) := by
  obtain ⟨mode, found⟩ := Option.isSome_iff_exists.mp setAside.hasMode
  rw [gather, setAside.meaning]
  dsimp only
  rw [gatherFile, bind_apply, found]
  change (if _ then _ else _ : Scanning Gathered) state = _
  rw [if_pos ⟨setAside.regular, setAside.isDatabaseFile⟩, bind_apply, poll_eq_ite, if_pos given]

end Given

section Staged

variable {α β : Type}

/-- What two steps leave as it is, the one after the other leaves. -/
theorem Scanning.staged_bind {first : Scanning α} {rest : α → Scanning β} {state : ScanState}
    (leaves : (first state).2.staged = state.staged)
    (leaves' : ∀ value between, first state = (.ok value, between) →
      (rest value between).2.staged = between.staged) :
    ((first >>= rest) state).2.staged = state.staged := by
  rw [bind_apply]
  cases ran : first state with
  | mk outcome between =>
    rw [ran] at leaves
    cases outcome with
    | ok value => exact (leaves' value between ran).trans leaves
    | error failure => exact leaves

namespace ScanSite

variable (site : ScanSite) {state : ScanState}

theorem staged_pollAt (number : Nat) : (site.pollAt number state).2.staged = state.staged := by
  rw [pollAt_eq_ite]

theorem staged_osReleaseUpdate (entry : Tar.Entry) :
    (site.osReleaseUpdate entry state).2.staged = state.staged := by
  unfold osReleaseUpdate
  cases entry.kind with
  | regular => exact Scanning.staged_bind rfl fun _ _ _ => rfl
  | symbolicLink | hardLink => cases entry.link? <;> rfl
  | _ => rfl

variable {site} (gathered : Gathered) (entry : Tar.Entry)

/-- After the signal was given, gathering an entry sets nothing aside. -/
theorem staged_gatherFile_of_isGiven (given : site.signal.isGiven state.reader = true)
    (path : String) : (site.gatherFile gathered entry path state).2.staged = state.staged := by
  refine Scanning.staged_bind rfl fun mode between numbered => ?_
  obtain ⟨-, rfl⟩ := Scanning.reading_need_eq_ok numbered
  split
  · rw [bind_apply, poll_eq_ite, if_pos given]
  · cases OsReleasePath.ofPath? path with
    | none => rfl
    | some tracked =>
      exact Scanning.staged_bind (site.staged_osReleaseUpdate entry) fun _ _ _ => rfl

theorem staged_gather_of_isGiven (given : site.signal.isGiven state.reader = true) :
    (site.gather gathered entry state).2.staged = state.staged := by
  unfold gather
  cases Member.ofEntry entry.kind entry.path with
  | ignored | hides => rfl
  | deletes path =>
    dsimp only
    cases OsReleasePath.ofPath? path <;> rfl
  | file path => exact staged_gatherFile_of_isGiven gathered entry given path

end ScanSite

end Staged

section Told

variable {site : ScanSite} {point next later : Juncture} {entry : Tar.Entry} {opened : ScanState}

/-- The signal stands by the time the scan comes upon an entry here. -/
def ScanSite.IsTold (site : ScanSite) (point : Juncture) : Prop :=
  ∀ entry opened, point.ComesUpon (.ok entry) opened → site.signal.Stands opened.reader

theorem ScanSite.isTold_of_isGiven {found : Except Tar.Fault Tar.Entry}
    (orderly : point.state.reader.IsOrderly) (comes : point.ComesUpon found opened)
    (given : site.signal.isGiven opened.reader = true) : site.IsTold point := by
  intro entry opened' comes'
  obtain ⟨rfl, rfl⟩ := comes.unique comes'
  exact ⟨given, comes.keeps Tar.keptByReading_isOrderly orderly⟩

theorem ScanSite.IsTold.turn (told : site.IsTold point) (turn : site.Turn point next) :
    site.IsTold next := by
  intro entry opened comes
  cases turn with
  | mk takesUp gathers =>
    have kept := site.signal.keptByReading_stands
    exact comes.keeps kept (gather_keeps kept gathers (told _ _ takesUp.comesUpon))

theorem ScanSite.IsTold.not_dvd (told : site.IsTold point)
    (takesUp : site.TakesUp point entry opened) : ¬ 256 ∣ point.number := by
  intro due
  have goesOn := takesUp.goesOn
  rw [pollAt_eq_ite, if_pos ⟨due, (told _ _ takesUp.comesUpon).isGiven⟩] at goesOn
  cases goesOn

/-- The turns after the signal was given do not get from one number that is due to the next. -/
theorem ScanSite.IsTold.number_sub_lt (told : site.IsTold point) (getsTo : site.GetsTo point later)
    (takesUp : site.TakesUp later entry opened) :
    later.number - point.number < later.number % 256 := by
  -- No number from the first on is due, so each turn adds one to the remainder.
  induction getsTo using Relation.ReflTransGen.head_induction_on with
  | refl =>
    have notDue := told.not_dvd takesUp
    omega
  | head turn _ ih =>
    have near := ih (told.turn turn)
    cases turn with
    | mk takesUp' _ =>
      have notDue := told.not_dvd takesUp'
      dsimp only at near
      omega

/-- After the signal was given nothing is set aside. -/
theorem ScanSite.IsTold.staged_gatherFrom (told : site.IsTold point) (fuel : Nat) :
    (site.gatherFrom fuel point.number point.gathered point.state).2.staged =
      point.state.staged := by
  induction fuel generalizing point with
  | zero => rfl
  | succ fuel ih =>
    obtain ⟨opened, same, ended | ⟨fault, comes⟩ | ⟨entry, comes⟩⟩ := point.exists_opened
    · rw [gatherFrom, bind_apply, ended]
      exact same
    · rw [gatherFrom_of_fault comes]
      exact (Scanning.staged_bind (site.staged_pollAt _) fun _ _ _ => rfl).trans same
    · rw [gatherFrom_of_entry comes]
      refine Eq.trans ?_ same
      refine Scanning.staged_bind (site.staged_pollAt _) fun _ polled polls => ?_
      obtain rfl := pollAt_eq_ok polls
      have gathers := staged_gather_of_isGiven point.gathered entry (told _ _ comes).isGiven
      refine Scanning.staged_bind gathers fun next between gathered => ?_
      exact ih (told.turn (.mk ⟨comes, polls⟩ gathered))

/-- The scan stops here, as its number is due or a file would be set aside. -/
theorem ScanSite.gatherFrom_of_isGiven {found : Except Tar.Fault Tar.Entry}
    (comes : point.ComesUpon found opened) (given : site.signal.isGiven opened.reader = true)
    (stops : 256 ∣ point.number ∨ ∃ entry, found = .ok entry ∧ IsSetAside entry) (fuel : Nat) :
    site.gatherFrom (fuel + 1) point.number point.gathered point.state =
      (.error .cancelled, opened) := by
  by_cases due : 256 ∣ point.number
  · cases found with
    | error fault =>
      rw [gatherFrom_of_fault comes, bind_apply, pollAt_eq_ite, if_pos ⟨due, given⟩]
    | ok entry =>
      rw [gatherFrom_of_entry comes, bind_apply, pollAt_eq_ite, if_pos ⟨due, given⟩]
  · obtain ⟨entry, rfl, setAside⟩ := stops.resolve_left due
    rw [gatherFrom_of_entry comes, bind_apply, pollAt_eq_ite, if_neg fun both => due both.1]
    dsimp only
    rw [bind_apply, gather_of_isSetAside setAside given]

end Told

/-- A scan that is told to stop gives just what it would have given, or fails for it. Where it
comes upon an entry, or a fault in its place, after the signal was given, it fails for that if the
number is due or the entry is a file to be set aside. From there on nothing is set aside, and fewer
than 256 entries are taken up. -/
theorem scan_stopped (site : ScanSite) (stream : ByteStream) (staged : FileTree) :
    (scan site stream staged = scan site.unstopped stream staged ∨
      (scan site stream staged).1 = .error .cancelled) ∧
    ∀ point found opened, site.GetsTo (.start stream staged) point →
      point.ComesUpon found opened → site.signal.isGiven opened.reader = true →
      ((256 ∣ point.number ∨ ∃ entry, found = .ok entry ∧ IsSetAside entry) →
        scan site stream staged = (.error .cancelled, point.state.staged)) ∧
      (scan site stream staged).2 = point.state.staged ∧
      ∀ later entry opened', site.GetsTo point later → site.TakesUp later entry opened' →
        later.number < point.number + 255 := by
  refine ⟨scan_follows site stream staged, ?_⟩
  intro point found opened getsTo comes given
  have orderly := getsTo.keeps Tar.keptByReading_isOrderly (Tar.Reader.isOrderly_new stream)
  have told := ScanSite.isTold_of_isGiven orderly comes given
  obtain ⟨fuel, enough, same⟩ := getsTo.exists_gatherFrom (ScanState.left_new_lt stream staged)
  have unstaged : (scan site stream staged).2 = point.state.staged := by
    have left := told.staged_gatherFrom fuel
    rw [← same] at left
    exact left
  refine ⟨fun stops => ?_, unstaged, fun later entry opened' getsTo' takesUp => ?_⟩
  · cases fuel with
    | zero => omega
    | succ fuel =>
      rw [ScanSite.gatherFrom_of_isGiven comes given stops] at same
      have stopped := scan_of_gatherAll same
      rw [stopped] at unstaged ⊢
      exact Prod.ext rfl unstaged
  · have near := told.number_sub_lt getsTo' takesUp
    omega

section Sample

open Fixture (archive)

/-- A layer with a file and a database behind it. -/
def stoppedStream : ByteStream :=
  .ofBytes (archive [.file "etc/motd" 0o644 [0x41], .file "./var/lib/rpm/Packages" 0o644 [0x41]])

/-- The scan is told to stop when it reads the header of the database. -/
def stoppedSite : ScanSite := { Fixture.sampleSite with signal := .fromRead 1024 }

/-- The database is not set aside, although its number is not due. -/
theorem scan_stopped_sample : ∃ point database opened,
    stoppedSite.GetsTo (.start stoppedStream .empty) point ∧
      point.ComesUpon (.ok database) opened ∧ stoppedSite.signal.isGiven opened.reader = true ∧
      ¬ 256 ∣ point.number ∧ IsSetAside database ∧
      scan stoppedSite stoppedStream .empty = (.error .cancelled, point.state.staged) := by
  have runs : ((stoppedSite.turn? (.start stoppedStream .empty)).any fun point =>
      point.found?.any fun found =>
        (stoppedSite.signal.isGiven found.2.reader && point.number % 256 != 0) &&
          (found.1.header.mode?.isSome &&
            (Rpm.isDatabaseFile (Path.normalize (Utf8.lossy found.1.path)) &&
              found.1.kind == .regular))) = true := by
    decide +kernel
  obtain ⟨point, turned, runs⟩ := (Option.any_eq_true _ _).mp runs
  obtain ⟨⟨database, opened⟩, found, runs⟩ := (Option.any_eq_true _ _).mp runs
  simp only [Bool.and_eq_true, bne_iff_ne, beq_iff_eq] at runs
  obtain ⟨⟨given, notDue⟩, hasMode, isDatabaseFile, regular⟩ := runs
  have getsTo : stoppedSite.GetsTo (.start stoppedStream .empty) point :=
    .single (ScanSite.turn?_eq_some_iff.mp turned)
  have comes := Juncture.found?_eq_some_iff.mp found
  have setAside : IsSetAside database := ⟨regular, isDatabaseFile, hasMode⟩
  obtain ⟨-, stops⟩ := scan_stopped stoppedSite stoppedStream .empty
  have stopped := (stops point _ _ getsTo comes given).1 (.inr ⟨database, rfl, setAside⟩)
  exact ⟨point, database, opened, getsTo, comes, given, by omega, setAside, stopped⟩

end Sample

end Layer

end ImageAudit
