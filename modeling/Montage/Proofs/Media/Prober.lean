import Mathlib.Data.List.Basic
import Montage.Media.Prober
import Montage.Proofs.Double.Order

/-!
# What a prober remembers

A prober is asked for durations while files come, go and change, and several paths may lead to one
file.  Nothing is assumed of the files but what is asked about them in each lookup.  If the end of
a run of the program depends on nothing but the place of the file and the time of its last change,
then what the prober remembers can be told only from how often the program runs: each lookup comes
to what it would come to if nothing were remembered, `lookup_as_forgetful`.
-/

namespace Montage

/-- A lookup that is made: the files there are, how the program would end, and the path. -/
structure Query where
  files : FileSystem
  run : ProbeRun
  path : String

namespace Prober

variable (p : Prober) (q : Query)

/-- What a lookup comes to. -/
def ask : Lookup :=
  p.lookup q.files q.run q.path

/-- A prober after lookups. -/
def afterAll (queries : List Query) : Prober :=
  queries.foldl (fun p q => (p.ask q).prober) p

/-- A prober that remembers nothing. -/
def forgetful : Prober :=
  { p with known := [] }

/-- The path under which a file is looked for, and if it is there, the state in which it is. -/
def sought : Except Fault (FilePath × Option FileState) := do
  let file ← p.resolve q.path
  return (file, ← q.files.state? file)

/-- The program ends as it does for the place of the file that is looked up and the time of its
last change, whatever the path by which it is looked up. -/
def Determines (probe : FileState → ProbeRun) : Prop :=
  ∀ file state, p.sought q = .ok (file, some state) → q.run = probe state

/-- All that is remembered is what the program would report. -/
def Trustworthy (probe : FileState → ProbeRun) : Prop :=
  ∀ state duration, p.known.lookup state = some duration →
    ∀ file, p.durationOf file (probe state) = .ok duration

/-- What a lookup can come to. -/
inductive Comes : Lookup → Prop where
  /-- The path cannot be made out. -/
  | refused {f : Fault} (h : p.sought q = .error f) : Comes { prober := p, outcome := .error f }
  /-- There is no such file. -/
  | missing {file : FilePath} (h : p.sought q = .ok (file, none)) :
    Comes { prober := p, outcome := .error (.script (.fileNotFound file.toText)) }
  /-- The duration is known. -/
  | known {file : FilePath} {state : FileState} {duration : Double}
    (h : p.sought q = .ok (file, some state)) (hknown : p.known.lookup state = some duration) :
    Comes { prober := p, outcome := .ok duration }
  /-- The program runs in vain. -/
  | failed {file : FilePath} {state : FileState} {f : Fault}
    (h : p.sought q = .ok (file, some state)) (hknown : p.known.lookup state = none)
    (hrun : p.durationOf file q.run = .error f) :
    Comes { prober := p, outcome := .error f, command := some (p.arguments file) }
  /-- The program reports the duration. -/
  | probed {file : FilePath} {state : FileState} {duration : Double}
    (h : p.sought q = .ok (file, some state)) (hknown : p.known.lookup state = none)
    (hrun : p.durationOf file q.run = .ok duration) :
    Comes {
      prober := { p with known := (state, duration) :: p.known }
      outcome := .ok duration
      command := some (p.arguments file)
      log := some ("[media] " ++ file.name ++ ": " ++ duration.toFixed 3 ++ "s") }

theorem comes :
  p.Comes q (p.ask q)
  := by
  rw [ask, lookup]
  cases hfile : p.resolve q.path with
  | error f =>
      apply Comes.refused
      rw [sought, hfile]
      rfl
  | ok file =>
      have hsought : p.sought q = (q.files.state? file).map (file, ·) := by
        rw [sought, hfile]
        rfl
      dsimp only
      cases hstate : q.files.state? file with
      | error f =>
          rw [hstate] at hsought
          apply Comes.refused hsought
      | ok state? =>
          rw [hstate] at hsought
          cases state? with
          | none => apply Comes.missing hsought
          | some state =>
              dsimp only
              cases hknown : p.known.lookup state with
              | some duration => apply Comes.known hsought hknown
              | none =>
                  dsimp only
                  cases hrun : p.durationOf file q.run with
                  | error f => apply Comes.failed hsought hknown hrun
                  | ok duration => apply Comes.probed hsought hknown hrun

/-! ### What is reported -/

variable {p q} {probe : FileState → ProbeRun} {file : FilePath} {duration : Double}

/-- A run reports a duration if it ends well and writes one that can be played. -/
theorem durationOf_eq_ok_iff {run : ProbeRun} :
  p.durationOf file run = .ok duration
    ↔ ∃ output errors, run = .finished output errors 0
      ∧ Text.readDouble? (Text.trimmed output) = some duration
      ∧ duration.isFinite = true ∧ .zero < duration
  := by
  constructor
  · intro h
    unfold durationOf at h
    split at h
    · cases h
    · cases h
    · cases h
    · rename_i output errors exitCode
      split at h
      · cases h
      · rename_i hexit
        obtain rfl := not_not.mp hexit
        split at h
        · cases h
        · rename_i d hread
          by_cases hd : (!d.isFinite || decide (d ≤ .zero)) = true
          · rw [if_pos hd] at h
            cases h
          · rw [if_neg hd] at h
            obtain rfl := Except.ok.inj h
            obtain ⟨hfinite, hpositive⟩ : d.isFinite = true ∧ ¬ d ≤ .zero := by simpa using hd
            exact ⟨output, errors, rfl, hread, hfinite,
              Double.zero_lt_of_not_le_zero hfinite hpositive⟩
  · rintro ⟨output, errors, rfl, hread, hfinite, hpositive⟩
    have hplayable : ¬ (!duration.isFinite || decide (duration ≤ .zero)) = true := by
      simp [hfinite, Double.not_le_of_lt hpositive]
    rw [durationOf, if_neg (not_not.mpr rfl), hread]
    apply if_neg hplayable

/-- Whether a run reports a duration, and which, does not depend on the name of the file. -/
theorem durationOf_of_ok {run : ProbeRun} (h : p.durationOf file run = .ok duration)
    (file' : FilePath) :
  p.durationOf file' run = .ok duration
  := durationOf_eq_ok_iff.mpr (durationOf_eq_ok_iff.mp h)

/-! ### One lookup -/

/-- What a lookup reports if nothing is remembered. -/
def fresh (p : Prober) (q : Query) : Except Fault Double :=
  match p.sought q with
  | .error f => .error f
  | .ok (file, none) => .error (.script (.fileNotFound file.toText))
  | .ok (file, some _) => p.durationOf file q.run

/-- Where a file is looked for does not depend on what is remembered. -/
theorem sought_congr {p' : Prober} (h : p'.forgetful = p.forgetful) :
  p'.sought q = p.sought q
  := by
  change p'.forgetful.sought q = p.forgetful.sought q
  rw [h]

/-- What a lookup reports if nothing is remembered does not depend on what is. -/
theorem fresh_congr {p' : Prober} (h : p'.forgetful = p.forgetful) :
  p'.fresh q = p.fresh q
  := by
  change p'.forgetful.fresh q = p.forgetful.fresh q
  rw [h]

theorem trustworthy_of_forgetful (h : p.known = []) :
  p.Trustworthy probe
  := by
  intro state duration hknown
  rw [h] at hknown
  cases hknown

namespace Comes

variable {l : Lookup} (hl : p.Comes q l)

include hl

/-- A trustworthy prober reports what it would if it remembered nothing. -/
theorem outcome (hp : p.Trustworthy probe) (hq : p.Determines q probe) :
  l.outcome = p.fresh q
  := by
  cases hl with
  | refused h => rw [fresh, h]
  | missing h => rw [fresh, h]
  | known h hknown =>
      rw [fresh, h]
      dsimp only
      rw [hq _ _ h, hp _ _ hknown]
  | failed h _ hrun =>
      rw [fresh, h]
      exact hrun.symm
  | probed h _ hrun =>
      rw [fresh, h]
      exact hrun.symm

/-- A prober stays trustworthy. -/
theorem trustworthy (hp : p.Trustworthy probe) (hq : p.Determines q probe) :
  l.prober.Trustworthy probe
  := by
  cases hl with
  | refused | missing | known | failed => exact hp
  | probed h _ hrun =>
      intro state duration hknown file
      rw [List.lookup_cons] at hknown
      split at hknown
      · rename_i hsame
        obtain rfl := Option.some.inj hknown
        rw [eq_of_beq hsame, ← hq _ _ h]
        -- The file may be looked up under another name next time.
        apply durationOf_of_ok hrun
      · apply hp state duration hknown

/-- A lookup changes nothing of a prober but what it remembers. -/
theorem forgetful :
  l.prober.forgetful = p.forgetful
  := by cases hl <;> rfl

/-- What is known stays known. -/
theorem isSome_known {state : FileState} (h : (p.known.lookup state).isSome = true) :
  (l.prober.known.lookup state).isSome = true
  := by
  cases hl with
  | refused | missing | known | failed => exact h
  | probed =>
      rw [List.lookup_cons]
      split
      · rfl
      · exact h

/-- A duration that was found is known. -/
theorem isSome_known_of_ok {state : FileState} (h : p.sought q = .ok (file, some state))
    (hok : l.outcome = .ok duration) :
  (l.prober.known.lookup state).isSome = true
  := by
  cases hl with
  | refused | missing | failed => cases hok
  | known h' hknown =>
      cases h.symm.trans h'
      rw [hknown]
      rfl
  | probed h' =>
      cases h.symm.trans h'
      rw [List.lookup_cons_self]
      rfl

/-- The program does not run for what is known. -/
theorem command_eq_none {state : FileState} (h : p.sought q = .ok (file, some state))
    (hknown : (p.known.lookup state).isSome = true) :
  l.command = none
  := by
  cases hl with
  | refused | missing | known => rfl
  | failed h' hnone | probed h' hnone =>
      cases h.symm.trans h'
      rw [hnone] at hknown
      cases hknown

/-- A file that is not there is reported missing. -/
theorem of_missing (h : p.sought q = .ok (file, none)) :
  l = { prober := p, outcome := .error (.script (.fileNotFound file.toText)) }
  := by
  cases hl with
  | missing h' =>
      cases h.symm.trans h'
      rfl
  | refused h' | known h' | failed h' | probed h' => cases h.symm.trans h'

/-- A failure is not remembered. -/
theorem prober_of_error {f : Fault} (hf : l.outcome = .error f) :
  l.prober = p
  := by
  cases hl with
  | refused | missing | failed => rfl
  | known | probed => cases hf

end Comes

theorem playable_of_fresh (h : p.fresh q = .ok duration) :
  duration.isFinite = true ∧ .zero < duration
  := by
  unfold fresh at h
  split at h
  · cases h
  · cases h
  · obtain ⟨-, -, -, -, hplayable⟩ := durationOf_eq_ok_iff.mp h
    apply hplayable

/-! ### Many lookups -/

variable {queries : List Query}

theorem forgetful_afterAll :
  (p.afterAll queries).forgetful = p.forgetful
  := by
  induction queries generalizing p with
  | nil => rfl
  | cons q rest ih => exact ih.trans (p.comes q).forgetful

theorem sought_afterAll :
  (p.afterAll queries).sought q = p.sought q
  := sought_congr forgetful_afterAll

theorem determines_afterAll :
  (p.afterAll queries).Determines q probe ↔ p.Determines q probe
  := by rw [Determines, Determines, sought_afterAll]

theorem Trustworthy.afterAll (hp : p.Trustworthy probe)
    (hqueries : ∀ q ∈ queries, p.Determines q probe) :
  (p.afterAll queries).Trustworthy probe
  := by
  induction queries generalizing p with
  | nil => exact hp
  | cons q rest ih =>
      obtain ⟨hq, hrest⟩ := List.forall_mem_cons.mp hqueries
      apply ih ((p.comes q).trustworthy hp hq)
      intro q' hq'
      rw [Determines, sought_congr (p.comes q).forgetful]
      apply hrest q' hq'

theorem isSome_known_afterAll {state : FileState}
    (h : (p.known.lookup state).isSome = true) :
  ((p.afterAll queries).known.lookup state).isSome = true
  := by
  induction queries generalizing p with
  | nil => exact h
  | cons q rest ih => apply ih ((p.comes q).isSome_known h)

/-- What a prober remembers cannot be told from what it reports.  However the files have changed
since, a lookup comes to what it would come to if nothing were remembered, and a duration that
is reported can be played.  Once a lookup has succeeded for the place of a file and the time of
its last change, the program does not run for them again.  A file that is not there any more is
reported missing, and a lookup that fails leaves the prober as it is. -/
theorem lookup_as_forgetful (hnew : p.known = []) {history : List Query}
    (hprobe : ∀ q' ∈ history ++ [q], p.Determines q' probe) :
  ((p.afterAll history).ask q).outcome = (p.forgetful.ask q).outcome
    ∧ (∀ duration, ((p.afterAll history).ask q).outcome = .ok duration →
      duration.isFinite = true ∧ .zero < duration)
    ∧ (∀ earlier q' later state file' duration file, history = earlier ++ q' :: later →
      p.sought q' = .ok (file', some state) →
      ((p.afterAll earlier).ask q').outcome = .ok duration →
      p.sought q = .ok (file, some state) → ((p.afterAll history).ask q).command = none)
    ∧ (∀ file, p.sought q = .ok (file, none) → (p.afterAll history).ask q
      = { prober := p.afterAll history, outcome := .error (.script (.fileNotFound file.toText)) })
    ∧ ∀ f, ((p.afterAll history).ask q).outcome = .error f →
      ((p.afterAll history).ask q).prober = p.afterAll history
  := by
  have hcomes := (p.afterAll history).comes q
  have hhistory : ∀ q' ∈ history, p.Determines q' probe :=
    fun q' hq' => hprobe q' (List.mem_append_left [q] hq')
  have hq : p.Determines q probe :=
    hprobe q (List.mem_append_right history List.mem_cons_self)
  have htrust := (trustworthy_of_forgetful hnew).afterAll hhistory
  have hsought : (p.afterAll history).sought q = p.sought q := sought_afterAll
  have houtcome : ((p.afterAll history).ask q).outcome = p.fresh q := by
    rw [hcomes.outcome htrust (determines_afterAll.mpr hq), fresh_congr forgetful_afterAll]
  refine ⟨?_, ?_, ?_, ?_, ?_⟩
  · have hforgetful : p.forgetful.Trustworthy probe := trustworthy_of_forgetful rfl
    rw [houtcome, (p.forgetful.comes q).outcome hforgetful hq]
    rfl
  · intro duration hok
    apply playable_of_fresh (houtcome.symm.trans hok)
  · rintro earlier q' later state file' duration file rfl hsought' hok hsame
    have hfound := ((p.afterAll earlier).comes q').isSome_known_of_ok
      (sought_afterAll.trans hsought') hok
    have hknown : ((p.afterAll (earlier ++ q' :: later)).known.lookup state).isSome = true := by
      rw [afterAll, List.foldl_append]
      apply isSome_known_afterAll hfound
    apply hcomes.command_eq_none (hsought.trans hsame) hknown
  · intro file hmissing
    apply hcomes.of_missing (hsought.trans hmissing)
  · intro f hf
    apply hcomes.prober_of_error hf

/-- A lookup at which the program ends as the state of the file says. -/
def query (p : Prober) (probe : FileState → ProbeRun) (files : FileSystem) (path : String) :
    Query where
  files := files
  path := path
  run := match p.sought ⟨files, .missing, path⟩ with
    | .ok (_, some state) => probe state
    | _ => .missing

theorem determines_query (files : FileSystem) (path : String) :
  p.Determines (p.query probe files path) probe
  := by
  intro file state h
  have hsought : p.sought ⟨files, .missing, path⟩ = .ok (file, some state) := h
  simp only [query, hsought]

/-- A prober in a directory below the root. -/
def inMedia : Prober :=
  { base := some (.ofText "/media"), command := "ffprobe" }

/-- The place of a file. -/
def clipPlace : FilePath := .ofText "/media/clip.mp4"

/-- The paths that lead to the file: its place, a detour, and a link. -/
def clipPaths : List FilePath :=
  [clipPlace, .ofText "/media/../media/clip.mp4", .ofText "/links/clip.mp4"]

/-- The file, changed at a given time, and no other one. -/
def clipAt (time : Int) : FileSystem where
  isFile path := .ok (clipPaths.contains path)
  resolved path := .ok (if clipPaths.contains path then clipPlace else path)
  changed path :=
    if clipPaths.contains path then .ok (.ofInt time) else .error (.file .notFound path.toText)

/-- No files at all. -/
def noFiles : FileSystem where
  isFile _ := .ok false
  resolved path := .ok path
  changed path := .error (.file .notFound path.toText)

/-- A file of ten and a half seconds becomes one that cannot be read. -/
def spoiling (state : FileState) : ProbeRun :=
  if state = ⟨clipPlace, .ofInt 1⟩ then .finished "10.5\n" "" 0 else .finished "" "bad data" 1

/-- The file is looked up by three paths, changes, and is gone. -/
def spoilt : List Query :=
  [inMedia.query spoiling (clipAt 1) "clip.mp4",
    inMedia.query spoiling (clipAt 1) "../media/clip.mp4",
    inMedia.query spoiling (clipAt 1) "/links/clip.mp4",
    inMedia.query spoiling (clipAt 2) "clip.mp4", inMedia.query spoiling noFiles "clip.mp4"]

/-- The file is back as it was, and is looked up by the link. -/
def restored : Query :=
  inMedia.query spoiling (clipAt 1) "/links/./clip.mp4"

theorem lookup_as_forgetful_spoilt :
  inMedia.known = []
    ∧ (∀ q ∈ spoilt ++ [restored], inMedia.Determines q spoiling)
    ∧ ((inMedia.afterAll spoilt).ask restored).outcome
      = (inMedia.forgetful.ask restored).outcome
    ∧ ((inMedia.afterAll spoilt).ask restored).outcome = .ok (.quotient 21 2)
    ∧ (Double.quotient 21 2).isFinite = true ∧ Double.zero < .quotient 21 2
    ∧ ((inMedia.afterAll spoilt).ask restored).command = none
    ∧ (inMedia.forgetful.ask restored).command.isSome = true
    ∧ (inMedia.afterAll spoilt).known = [(⟨clipPlace, .ofInt 1⟩, .quotient 21 2)]
  := by
  have hprobe : ∀ q ∈ spoilt ++ [restored], inMedia.Determines q spoiling := by
    simp [spoilt, restored, determines_query]
  obtain ⟨hsame, hplayable, honce, -, -⟩ := lookup_as_forgetful rfl hprobe
  have houtcome : ((inMedia.afterAll spoilt).ask restored).outcome = .ok (.quotient 21 2) := by
    decide +kernel
  have hfirst : ((inMedia.afterAll []).ask (inMedia.query spoiling (clipAt 1) "clip.mp4")).outcome
      = .ok (.quotient 21 2) := by
    decide +kernel
  have hnone : ((inMedia.afterAll spoilt).ask restored).command = none := by
    apply honce [] _ _ ⟨clipPlace, .ofInt 1⟩ clipPlace _ (.ofText "/links/clip.mp4") rfl _ hfirst
    · decide +kernel
    · decide +kernel
  obtain ⟨hfinite, hpositive⟩ := hplayable _ houtcome
  exact ⟨rfl, hprobe, hsame, houtcome, hfinite, hpositive, hnone, by decide +kernel,
    by decide +kernel⟩

end Prober

end Montage
