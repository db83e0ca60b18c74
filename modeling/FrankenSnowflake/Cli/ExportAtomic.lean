import FrankenSnowflake.Cli.ExportPath
import Mathlib.Tactic.Tauto

/-!
# All or nothing

What orderly steps keep, for any number of exports: an open export is the only one
to its target, its files are where it made them, and every other file is that of an
export that committed or was there before.
-/

namespace FrankenSnowflake.ExportPath

open Foundation

/-! ## Where files are -/

namespace Phase

/-- Its file bears the name it was made under. -/
def HasFile : Phase → Prop
  | .writing _ | .flushed _ => True
  | .idle | .opening | .renamed _ | .dropping | .releasing | .succeeded _ | .failed => False

/-- Its file may bear the name it was made under. -/
def MayHaveFile : Phase → Prop
  | .writing _ | .flushed _ | .dropping => True
  | .idle | .opening | .renamed _ | .releasing | .succeeded _ | .failed => False

/-- Its reservation is there, if it makes one. -/
def HoldsTarget : Phase → Prop
  | .opening | .writing _ | .flushed _ | .dropping | .releasing => True
  | .idle | .renamed _ | .succeeded _ | .failed => False

/-- Only some exports get there. -/
def Fits (job : Job) : Phase → Prop
  | .opening | .releasing => job.Reserves
  | .flushed _ | .renamed _ | .dropping => job.UsesTemp
  | .idle | .writing _ | .succeeded _ | .failed => True

variable {p : Phase} {given : List UInt8}

theorem HoldsTarget.isOpen (h : p.HoldsTarget) : p.IsOpen := by
  cases p <;> trivial

theorem MayHaveFile.isOpen (h : p.MayHaveFile) : p.IsOpen := by
  cases p <;> trivial

theorem HasFile.isOpen (h : p.HasFile) : p.IsOpen := by
  cases p <;> trivial

theorem HoldsTarget.committed (h : p.HoldsTarget) : p.committed = none := by
  cases p <;> trivial

theorem eq_succeeded (h : p.committed = some given) (hclosed : ¬ p.IsOpen) :
    p = .succeeded given := by
  cases p with
  | succeeded g => exact congrArg succeeded (Option.some.inj h)
  | renamed g => exact absurd trivial hclosed
  | idle | opening | writing | flushed | dropping | releasing | failed => cases h

end Phase

section

variable {κ : Type} [DecidableEq κ] {pid : Nat} {info : κ → Job}
  {existing : Path → Option (List UInt8)} {w w' : World κ} {k k' : κ} {action : Action}
  {p : Path} {f : File κ} {given : List UInt8}

/-- What is known of the own files of an export. -/
structure Kept (pid : Nat) (info : κ → Job) (existing : Path → Option (List UInt8)) (w : World κ)
    (k : κ) : Prop where
  own : (w.phase k).HasFile → w.disk.entry ((info k).file pid) = some (.own k)
  reserved : (info k).Reserves → (w.phase k).HoldsTarget →
    w.disk.entry (info k).path = some (.reserved k) ∧ existing (info k).path = none
  flushed : ∀ given, w.phase k = .flushed given → w.disk.bytes (.own k) = given
  fits : (w.phase k).Fits (info k)

/-- Where the file of an export can be found. -/
def Whereabouts (pid : Nat) (info : κ → Job) (w : World κ) (p : Path) : File κ → Prop
  | .old _ => True
  | .reserved k => p = (info k).path ∧ (info k).Reserves ∧ (w.phase k).HoldsTarget
  | .own k => (p = (info k).file pid ∧ (w.phase k).MayHaveFile) ∨
      (p = (info k).path ∧ (w.phase k).committed = some (w.disk.bytes (.own k)))

/-- A target holds what it held before, or the bytes of an export that committed. -/
def Settled (info : κ → Job) (existing : Path → Option (List UInt8)) (w : World κ) (p : Path) : Prop :=
  w.disk.contents p = existing p ∨ ∃ k given, (info k).path = p ∧
    (w.phase k).committed = some given ∧ w.disk.contents p = some given

/-- A target is about to be made by an export that does not overwrite. -/
def Claimed (info : κ → Job) (w : World κ) (p : Path) : Prop :=
  ∃ k, (info k).path = p ∧ (info k).target.overwrite = false ∧ (w.phase k).HoldsTarget

structure Inv (pid : Nat) (info : κ → Job) (existing : Path → Option (List UInt8)) (w : World κ) :
    Prop where
  alone : ∀ k k', (w.phase k).IsOpen → (w.phase k').IsOpen → (info k').path = (info k).path → k' = k
  kept : ∀ k, Kept pid info existing w k
  found : ∀ p f, w.disk.entry p = some f → Whereabouts pid info w p f
  settled : ∀ k, Settled info existing w (info k).path ∨ Claimed info w (info k).path

/-! ## What a step leaves alone -/

/-- Whatever is not the actor's or under one of its two paths. -/
structure Frame (pid : Nat) (info : κ → Job) (w : World κ) (k : κ) (w' : World κ) : Prop where
  phase : ∀ k', k' ≠ k → w'.phase k' = w.phase k'
  entry : ∀ p, p ≠ (info k).temp pid → p ≠ (info k).path → w'.disk.entry p = w.disk.entry p
  bytes : ∀ f : File κ, f.creator ≠ some k → w'.disk.bytes f = w.disk.bytes f

theorem file_eq (pid : Nat) (job : Job) : job.file pid = job.temp pid ∨ job.file pid = job.path := by
  unfold Job.file
  split_ifs
  · exact Or.inl rfl
  · exact Or.inr rfl

omit [DecidableEq κ] in
theorem ne_of_creator {f f' : File κ} (h : f'.creator = some k) (hf : f.creator ≠ some k) : f ≠ f' :=
  fun heq ↦ hf (heq ▸ h)

theorem Step.frame (h : Step pid info w k action w') : Frame pid info w k w' := by
  obtain ⟨hact⟩ := h
  generalize w.phase k = phase at hact
  refine ⟨fun k' hk' ↦ Function.update_of_ne hk' .., fun p htemp hpath ↦ ?_, fun f hf ↦ ?_⟩
  · cases hact with
    | reserve | rename | release => simp [htemp, hpath]
    | openTemp | createTemp | removeTemp | dropRenamed => simp [htemp]
    | create =>
        refine Directory.create_entry_of_ne ?_
        rcases file_eq pid (info k) with h | h <;> simp [h, htemp, hpath]
    | refuse | openTempFails | createTempFails | chunk | progress | chunkFails | drop | flush
    | flushFails | write | writeFails | renameFails | removeTempFails | releaseFails
    | dropRenamedFails => rfl
  · have hown : f ≠ .own k := ne_of_creator rfl hf
    have hreserved : f ≠ .reserved k := ne_of_creator rfl hf
    cases hact with
    | reserve => exact Directory.create_bytes_of_ne hreserved
    | openTemp | createTemp | create => exact Directory.create_bytes_of_ne hown
    | progress | chunkFails | drop | flush | flushFails | write | writeFails =>
        exact Directory.write_bytes_of_ne hown
    | refuse | openTempFails | createTempFails | chunk | rename | renameFails | removeTemp
    | removeTempFails | release | releaseFails | dropRenamed | dropRenamedFails => rfl

/-- The steps that an export can only take if no other to its target is open. -/
theorem Inv.alone_of_step (h : Inv pid info existing w) (hstep : Step pid info w k action w')
    (horderly : Orderly info w k action) {k' : κ} (hk' : (w.phase k').IsOpen)
    (hpath : (info k').path = (info k).path) (hmade : action ≠ .refuse) : k' = k := by
  obtain ⟨hact⟩ := hstep
  have hopen (hk : (w.phase k).IsOpen) : k' = k := h.alone k k' hk hk' hpath
  generalize hphase : w.phase k = phase at hact hopen
  cases hact with
  | reserve | openTemp | openTempFails | create => exact absurd hpath (horderly k' hk')
  | refuse => exact absurd rfl hmade
  | createTemp | createTempFails | chunk | progress | chunkFails | drop | flush | flushFails | write
  | writeFails | rename | renameFails | removeTemp | removeTempFails | release | releaseFails
  | dropRenamed | dropRenamedFails => exact hopen trivial

/-- An invariant that holds after a step of an export that is alone, if it holds of its own files
and of its own two paths. -/
theorem Inv.of_frame (h : Inv pid info existing w) (huncrossed : Uncrossed pid info)
    (hframe : Frame pid info w k w')
    (halone : ∀ k', (w.phase k').IsOpen → (info k').path = (info k).path → k' = k)
    (hkept : Kept pid info existing w' k)
    (hfound : ∀ p f, w'.disk.entry p = some f → p = (info k).temp pid ∨ p = (info k).path →
      Whereabouts pid info w' p f)
    (hsettled : Settled info existing w' (info k).path ∨ Claimed info w' (info k).path) :
    Inv pid info existing w' := by
  have hpaths : ∀ k', (w.phase k').IsOpen → k' ≠ k → (info k').path ≠ (info k).path ∧
      (info k').temp pid ≠ (info k).temp pid := fun k' hopen hne ↦
    ⟨fun heq ↦ hne (halone k' hopen heq), fun heq ↦ hne (halone k' hopen (Job.path_eq_of_temp_eq heq))⟩
  refine ⟨fun k₁ k₂ h₁ h₂ heq ↦ ?_, fun k' ↦ ?_, fun p f hp ↦ ?_, fun k' ↦ ?_⟩
  · by_cases hk₁ : k₁ = k
    · by_cases hk₂ : k₂ = k
      · rw [hk₁, hk₂]
      · rw [hframe.phase k₂ hk₂] at h₂
        exact absurd (halone k₂ h₂ (hk₁ ▸ heq)) hk₂
    · rw [hframe.phase k₁ hk₁] at h₁
      by_cases hk₂ : k₂ = k
      · exact absurd (halone k₁ h₁ (hk₂ ▸ heq.symm)) hk₁
      · rw [hframe.phase k₂ hk₂] at h₂
        exact h.alone k₁ k₂ h₁ h₂ heq
  · by_cases hk' : k' = k
    · rwa [hk']
    · have hold := h.kept k'
      have hphase := hframe.phase k' hk'
      have hbytes : w'.disk.bytes (.own k') = w.disk.bytes (.own k') :=
        hframe.bytes _ fun heq ↦ hk' (Option.some.inj heq)
      refine ⟨fun hfile ↦ ?_, fun hjob hholds ↦ ?_, fun given hgiven ↦ ?_, ?_⟩
      · rw [hphase] at hfile
        obtain ⟨hpath, htemp⟩ := hpaths k' hfile.isOpen hk'
        rw [hframe.entry _ ?_ ?_, hold.own hfile]
        · rcases file_eq pid (info k') with hf | hf
          · rwa [hf]
          · rw [hf]
            exact huncrossed k' k
        · rcases file_eq pid (info k') with hf | hf
          · rw [hf]
            exact (huncrossed k k').symm
          · rwa [hf]
      · rw [hphase] at hholds
        obtain ⟨hpath, -⟩ := hpaths k' hholds.isOpen hk'
        rw [hframe.entry _ (huncrossed k' k) hpath]
        exact hold.reserved hjob hholds
      · rw [hbytes]
        exact hold.flushed given (hphase ▸ hgiven)
      · rw [hphase]
        exact hold.fits
  · by_cases hown : p = (info k).temp pid ∨ p = (info k).path
    · exact hfound p f hp hown
    · obtain ⟨htemp, hpath⟩ := not_or.mp hown
      rw [hframe.entry p htemp hpath] at hp
      have hwhere := h.found p f hp
      cases f with
      | old q => trivial
      | reserved k' =>
          have hk' : k' ≠ k := fun heq ↦ hpath (heq ▸ hwhere.1)
          exact ⟨hwhere.1, hwhere.2.1, (hframe.phase k' hk').symm ▸ hwhere.2.2⟩
      | own k' =>
          have hk' : k' ≠ k := by
            rintro rfl
            rcases hwhere with ⟨hp, -⟩ | ⟨hp, -⟩
            · rcases file_eq pid (info k') with hf | hf
              · exact htemp (hp.trans hf)
              · exact hpath (hp.trans hf)
            · exact hpath hp
          have hbytes : w'.disk.bytes (.own k') = w.disk.bytes (.own k') :=
            hframe.bytes _ fun heq ↦ hk' (Option.some.inj heq)
          simpa only [Whereabouts, hframe.phase k' hk', hbytes] using hwhere
  · by_cases hpath : (info k').path = (info k).path
    · rwa [hpath]
    · have hentry := hframe.entry _ (huncrossed k' k) hpath
      have hcontents : w'.disk.contents (info k').path = w.disk.contents (info k').path := by
        refine Directory.contents_congr hentry fun f hf ↦ hframe.bytes f fun hcreator ↦ ?_
        have hwhere := h.found _ f hf
        cases f with
        | old q => cases hcreator
        | reserved k₁ =>
            rw [Option.some.inj hcreator] at hwhere
            exact hpath hwhere.1
        | own k₁ =>
            rw [Option.some.inj hcreator] at hwhere
            rcases hwhere with ⟨hp, -⟩ | ⟨hp, -⟩
            · rcases file_eq pid (info k) with hf | hf
              · exact huncrossed k' k (hp.trans hf)
              · exact hpath (hp.trans hf)
            · exact hpath hp
      have hne : ∀ k₁, (info k₁).path = (info k').path → k₁ ≠ k := fun k₁ heq hk₁ ↦
        hpath (hk₁ ▸ heq.symm)
      rcases h.settled k' with (hsame | ⟨k₁, given, heq, hcommitted, hgiven⟩) | ⟨k₁, heq, hnew, hholds⟩
      · exact Or.inl (Or.inl (hcontents.trans hsame))
      · exact Or.inl (Or.inr ⟨k₁, given, heq, by rwa [hframe.phase k₁ (hne k₁ heq)],
          hcontents.trans hgiven⟩)
      · exact Or.inr ⟨k₁, heq, hnew, by rwa [hframe.phase k₁ (hne k₁ heq)]⟩

/-! ## What the actor keeps -/

/-- A name that a step leaves alone still names what it may name. -/
theorem Whereabouts.step (h : Whereabouts pid info w p f) (hframe : Frame pid info w k w')
    (hmay : p = (info k).file pid → (w.phase k).MayHaveFile → (w'.phase k).MayHaveFile)
    (hholds : (info k).Reserves → p = (info k).path → (w.phase k).HoldsTarget →
      (w'.phase k).HoldsTarget)
    (hcommitted : ∀ given, (w.phase k).committed = some given →
      (w'.phase k).committed = some given ∧ w'.disk.bytes (.own k) = w.disk.bytes (.own k)) :
    Whereabouts pid info w' p f := by
  cases f with
  | old q => trivial
  | reserved k' =>
      obtain ⟨hp, hjob, hold⟩ := h
      refine ⟨hp, hjob, ?_⟩
      by_cases hk' : k' = k
      · subst hk'
        exact hholds hjob hp hold
      · rwa [hframe.phase k' hk']
  | own k' =>
      by_cases hk' : k' = k
      · subst hk'
        rcases h with ⟨hp, hold⟩ | ⟨hp, hold⟩
        · exact Or.inl ⟨hp, hmay hp hold⟩
        · obtain ⟨hnew, hbytes⟩ := hcommitted _ hold
          exact Or.inr ⟨hp, hnew.trans (congrArg some hbytes.symm)⟩
      · have hbytes : w'.disk.bytes (.own k') = w.disk.bytes (.own k') :=
          hframe.bytes _ fun heq ↦ hk' (Option.some.inj heq)
        simpa only [Whereabouts, hframe.phase k' hk', hbytes] using h

theorem Phase.MayHaveFile.holdsTarget {p : Phase} (h : p.MayHaveFile) : p.HoldsTarget := by
  cases p <;> trivial

omit [DecidableEq κ] in
theorem overwrite_of_file_eq {job : Job} (h : job.path = job.file pid) :
    job.target.overwrite = false := by
  unfold Job.file at h
  split_ifs at h with hjob
  · exact absurd h.symm (job.temp_ne_path pid)
  · exact Bool.eq_false_iff.mpr fun htrue ↦ hjob (Or.inr htrue)

/-- The target of an export that does not come to hold another file is settled as it was. -/
theorem Inv.settled_of_entry (h : Inv pid info existing w) (hframe : Frame pid info w k w')
    (halone : ∀ k', (w.phase k').IsOpen → (info k').path = (info k).path → k' = k)
    (hentry : w'.disk.entry (info k).path = w.disk.entry (info k).path)
    (hholds : (info k).target.overwrite = false → (w.phase k).HoldsTarget →
      (w'.phase k).HoldsTarget)
    (hcommitted : ∀ given, (w.phase k).committed = some given →
      (w'.phase k).committed = some given ∧ w'.disk.bytes (.own k) = w.disk.bytes (.own k)) :
    Settled info existing w' (info k).path ∨ Claimed info w' (info k).path := by
  by_cases hclaim : (info k).target.overwrite = false ∧ (w.phase k).HoldsTarget
  · exact Or.inr ⟨k, rfl, hclaim.1, hholds hclaim.1 hclaim.2⟩
  · have hcontents : w'.disk.contents (info k).path = w.disk.contents (info k).path := by
      refine Directory.contents_congr hentry fun f hf ↦ ?_
      by_cases hcreator : f.creator = some k
      · have hwhere := h.found _ f hf
        cases f with
        | old q => cases hcreator
        | reserved k' =>
            obtain rfl : k' = k := Option.some.inj hcreator
            exact absurd ⟨hwhere.2.1.2, hwhere.2.2⟩ hclaim
        | own k' =>
            obtain rfl : k' = k := Option.some.inj hcreator
            rcases hwhere with ⟨hp, hmay⟩ | ⟨-, hgiven⟩
            · exact absurd ⟨overwrite_of_file_eq hp, hmay.holdsTarget⟩ hclaim
            · exact (hcommitted _ hgiven).2
      · exact hframe.bytes f hcreator
    rcases h.settled k with (hsame | ⟨k', given, heq, hgiven, hbytes⟩) | ⟨k', heq, hnew, hold⟩
    · exact Or.inl (Or.inl (hcontents.trans hsame))
    · refine Or.inl (Or.inr ⟨k', given, heq, ?_, hcontents.trans hbytes⟩)
      by_cases hk' : k' = k
      · subst hk'
        exact (hcommitted given hgiven).1
      · rwa [hframe.phase k' hk']
    · obtain rfl : k' = k := halone k' hold.isOpen heq
      exact absurd ⟨hnew, hold⟩ hclaim

variable {phase phase' : Phase}

/-- A step that leaves all names alone. -/
theorem Inv.goOn (h : Inv pid info existing w) (huncrossed : Uncrossed pid info)
    (hframe : Frame pid info w k w')
    (halone : ∀ k', (w.phase k').IsOpen → (info k').path = (info k).path → k' = k)
    (hphase : w.phase k = phase) (hnext : w'.phase k = phase') (hentry : w'.disk.entry = w.disk.entry)
    (hfile : phase'.HasFile → phase.HasFile)
    (hnew : (info k).Reserves → phase'.HoldsTarget → phase.HoldsTarget)
    (hmay : phase.MayHaveFile → phase'.MayHaveFile)
    (hholds : phase.HoldsTarget → phase'.HoldsTarget)
    (hcommitted : ∀ given, phase.committed = some given →
      phase'.committed = some given ∧ w'.disk.bytes (.own k) = w.disk.bytes (.own k))
    (hflushed : ∀ given, phase' = .flushed given → w'.disk.bytes (.own k) = given)
    (hfits : phase'.Fits (info k)) : Inv pid info existing w' := by
  subst hphase hnext
  refine h.of_frame huncrossed hframe halone ⟨?_, ?_, hflushed, hfits⟩ (fun p f hp _ ↦ ?_) ?_
  · intro hopen
    rw [hentry]
    exact (h.kept k).own (hfile hopen)
  · intro hjob hopen
    rw [hentry]
    exact (h.kept k).reserved hjob (hnew hjob hopen)
  · rw [hentry] at hp
    exact (h.found p f hp).step hframe (fun _ ↦ hmay) (fun _ _ ↦ hholds) hcommitted
  · exact h.settled_of_entry hframe halone (congrFun hentry _) (fun _ ↦ hholds) hcommitted

/-- An export makes its temporary file. -/
theorem Inv.makeTemp (h : Inv pid info existing w) (huncrossed : Uncrossed pid info)
    (hframe : Frame pid info w k w')
    (halone : ∀ k', (w.phase k').IsOpen → (info k').path = (info k).path → k' = k)
    (hphase : w.phase k = phase) (hnext : w'.phase k = .writing given)
    (hdisk : w'.disk = w.disk.create ((info k).temp pid) (.own k))
    (hjob : (info k).UsesTemp) (hnew : (info k).Reserves → phase.HoldsTarget)
    (hcommitted : phase.committed = none) : Inv pid info existing w' := by
  have hfile : (info k).file pid = (info k).temp pid := if_pos hjob
  have hmade : w'.disk.entry ((info k).temp pid) = some (.own k) := by
    rw [hdisk, Directory.create_entry_self]
  have hentry : w'.disk.entry (info k).path = w.disk.entry (info k).path := by
    rw [hdisk, Directory.create_entry_of_ne (huncrossed k k)]
  have hnone {P : Prop} {given : List UInt8} (hgiven : (w.phase k).committed = some given) : P := by
    rw [hphase, hcommitted] at hgiven
    cases hgiven
  have hmay : (w'.phase k).MayHaveFile := hnext ▸ trivial
  have hholds : (w'.phase k).HoldsTarget := hnext ▸ trivial
  refine h.of_frame huncrossed hframe halone ⟨?_, ?_, ?_, ?_⟩ (fun p f hp hown ↦ ?_) ?_
  · intro _
    rw [hfile, hmade]
  · intro hjob _
    rw [hentry]
    exact (h.kept k).reserved hjob (hphase ▸ hnew hjob)
  · intro given' hgiven
    rw [hnext] at hgiven
    cases hgiven
  · rw [hnext]
    trivial
  · rcases hown with rfl | rfl
    · rw [hmade] at hp
      cases hp
      exact Or.inl ⟨hfile.symm, hmay⟩
    · rw [hentry] at hp
      exact (h.found _ f hp).step hframe (fun _ _ ↦ hmay) (fun _ _ _ ↦ hholds) fun _ ↦ hnone
  · exact h.settled_of_entry hframe halone hentry (fun _ _ ↦ hholds) fun _ ↦ hnone

/-- An export removes its temporary file, or what bears its name. -/
theorem Inv.removeTemp (h : Inv pid info existing w) (huncrossed : Uncrossed pid info)
    (hframe : Frame pid info w k w')
    (halone : ∀ k', (w.phase k').IsOpen → (info k').path = (info k).path → k' = k)
    (hphase : w.phase k = phase) (hnext : w'.phase k = phase')
    (hdisk : w'.disk = w.disk.remove ((info k).temp pid)) (hjob : (info k).UsesTemp)
    (hgone : ¬ phase'.HasFile) (hnew : phase'.HoldsTarget → phase.HoldsTarget)
    (hholds : (info k).Reserves → phase.HoldsTarget → phase'.HoldsTarget)
    (hcommitted : ∀ given, phase.committed = some given → phase'.committed = some given)
    (hfits : phase'.Fits (info k)) : Inv pid info existing w' := by
  subst hphase hnext
  have hfile : (info k).file pid = (info k).temp pid := if_pos hjob
  have hbytes : w'.disk.bytes (.own k) = w.disk.bytes (.own k) := by
    rw [hdisk, Directory.remove_bytes]
  have hentry : w'.disk.entry (info k).path = w.disk.entry (info k).path := by
    rw [hdisk, Directory.remove_entry_of_ne (huncrossed k k)]
  refine h.of_frame huncrossed hframe halone ⟨?_, ?_, ?_, hfits⟩ (fun p f hp hown ↦ ?_) ?_
  · exact fun hopen ↦ absurd hopen hgone
  · intro hjob hopen
    rw [hentry]
    exact (h.kept k).reserved hjob (hnew hopen)
  · intro given hgiven
    rw [hgiven] at hgone
    exact absurd trivial hgone
  · rcases hown with rfl | rfl
    · rw [hdisk, Directory.remove_entry_self] at hp
      cases hp
    · rw [hentry] at hp
      refine (h.found _ f hp).step hframe (fun hpath _ ↦ ?_) (fun hjob _ ↦ hholds hjob) ?_
      · exact absurd (hpath.trans hfile) (huncrossed k k)
      · exact fun given hgiven ↦ ⟨hcommitted given hgiven, hbytes⟩
  · refine h.settled_of_entry hframe halone hentry (fun hkeep ↦ hholds ⟨?_, hkeep⟩) ?_
    · rcases hjob with hstreams | htrue
      · exact hstreams
      · exact absurd (hkeep.symm.trans htrue) Bool.false_ne_true
    · exact fun given hgiven ↦ ⟨hcommitted given hgiven, hbytes⟩

/-- An export that is refused was never open. -/
theorem Inv.refuse (h : Inv pid info existing w) (hidle : w.phase k = .idle) :
    Inv pid info existing ⟨w.disk, Function.update w.phase k .failed⟩ := by
  have hsame {Q : Phase → Prop} (hQ : Q .failed ↔ Q .idle) (k' : κ) :
      Q (Function.update w.phase k .failed k') ↔ Q (w.phase k') := by
    by_cases hk' : k' = k
    · rw [hk', Function.update_self, hidle]
      exact hQ
    · rw [Function.update_of_ne hk']
  refine ⟨fun k₁ k₂ h₁ h₂ ↦ ?_, fun k' ↦ ?_, fun p f hp ↦ ?_, fun k' ↦ ?_⟩
  · exact h.alone k₁ k₂ ((hsame Iff.rfl k₁).mp h₁) ((hsame Iff.rfl k₂).mp h₂)
  · obtain ⟨hown, hreserved, hflushed, hfits⟩ := h.kept k'
    refine ⟨fun hfile ↦ ?_, fun hjob hholds ↦ ?_, fun given hgiven ↦ ?_, ?_⟩
    · exact hown ((hsame Iff.rfl k').mp hfile)
    · exact hreserved hjob ((hsame Iff.rfl k').mp hholds)
    · exact hflushed given ((hsame (Q := (· = .flushed given)) ⟨nofun, nofun⟩ k').mp hgiven)
    · exact (hsame (Q := Phase.Fits (info k')) Iff.rfl k').mpr hfits
  · have hwhere := h.found p f hp
    cases f with
    | old q => trivial
    | reserved k' => exact ⟨hwhere.1, hwhere.2.1, (hsame Iff.rfl k').mpr hwhere.2.2⟩
    | own k' =>
        rcases hwhere with ⟨hp, hmay⟩ | ⟨hp, hgiven⟩
        · exact Or.inl ⟨hp, (hsame Iff.rfl k').mpr hmay⟩
        · exact Or.inr ⟨hp, (hsame (Q := (·.committed = some _)) Iff.rfl k').mpr hgiven⟩
  · rcases h.settled k' with (hold | ⟨k₁, given, heq, hgiven, hbytes⟩) | ⟨k₁, heq, hnew, hholds⟩
    · exact Or.inl (Or.inl hold)
    · exact Or.inl (Or.inr ⟨k₁, given, heq,
        (hsame (Q := (·.committed = some given)) Iff.rfl k₁).mpr hgiven, hbytes⟩)
    · exact Or.inr ⟨k₁, heq, hnew, (hsame Iff.rfl k₁).mpr hholds⟩

/-- An export makes a file under a target that has none: its reservation, or the file that
`write_artifact` writes to. -/
theorem Inv.makeTarget (h : Inv pid info existing w) (huncrossed : Uncrossed pid info)
    (hframe : Frame pid info w k w')
    (halone : ∀ k', (w.phase k').IsOpen → (info k').path = (info k).path → k' = k)
    (hphase : w.phase k = .idle) (hdisk : w'.disk = w.disk.create (info k).path f)
    (hkept : Kept pid info existing w' k) (hwhere : Whereabouts pid info w' (info k).path f)
    (hjob : (info k).target.overwrite = false) (hholds : (w'.phase k).HoldsTarget) :
    Inv pid info existing w' := by
  have hentry : w'.disk.entry ((info k).temp pid) = w.disk.entry ((info k).temp pid) := by
    rw [hdisk, Directory.create_entry_of_ne (huncrossed k k).symm]
  refine h.of_frame huncrossed hframe halone hkept (fun p f' hp hown ↦ ?_) ?_
  · rcases hown with rfl | rfl
    · rw [hentry] at hp
      refine (h.found _ f' hp).step hframe (fun _ hmay ↦ ?_) (fun _ _ _ ↦ hholds) fun given hgiven ↦ ?_
      · rw [hphase] at hmay
        exact hmay.elim
      · rw [hphase] at hgiven
        cases hgiven
    · rw [hdisk, Directory.create_entry_self] at hp
      rwa [← Option.some.inj hp]
  · exact Or.inr ⟨k, rfl, hjob, hholds⟩

omit [DecidableEq κ] in
/-- Nothing existed under the free target of an export that starts. -/
theorem Inv.existing_of_free (h : Inv pid info existing w)
    (halone : ∀ k', (w.phase k').IsOpen → (info k').path = (info k).path → k' = k)
    (hphase : w.phase k = .idle) (hfree : w.disk.entry (info k).path = none) :
    existing (info k).path = none := by
  have hcontents : w.disk.contents (info k).path = none := by
    rw [Directory.contents, hfree, Option.map_none]
  rcases h.settled k with (hsame | ⟨k', given, -, -, hgiven⟩) | ⟨k', heq, -, hholds⟩
  · exact hsame.symm.trans hcontents
  · rw [hcontents] at hgiven
    cases hgiven
  · rw [halone k' hholds.isOpen heq, hphase] at hholds
    exact hholds.elim

/-- An export comes to have committed, with its own file under its target. -/
theorem Inv.commit (h : Inv pid info existing w) (huncrossed : Uncrossed pid info)
    (hframe : Frame pid info w k w')
    (halone : ∀ k', (w.phase k').IsOpen → (info k').path = (info k).path → k' = k)
    (given : List UInt8) (hnext : (w'.phase k).committed = some given)
    (hfits : (w'.phase k).Fits (info k))
    (hentry : w'.disk.entry (info k).path = some (.own k))
    (hbytes : w'.disk.bytes (.own k) = given)
    (htemp : ∀ f, w'.disk.entry ((info k).temp pid) = some f →
      Whereabouts pid info w' ((info k).temp pid) f) : Inv pid info existing w' := by
  have hnot {Q : Phase → Prop} (hQ : ∀ phase : Phase, Q phase → phase.committed = none) :
      ¬ Q (w'.phase k) := by
    intro hholds
    rw [hQ _ hholds] at hnext
    cases hnext
  refine h.of_frame huncrossed hframe halone ⟨?_, ?_, ?_, hfits⟩ (fun p f hp hown ↦ ?_) ?_
  · refine fun hopen ↦ absurd hopen (hnot fun phase hphase ↦ ?_)
    cases phase <;> trivial
  · exact fun _ hopen ↦ absurd hopen (hnot fun phase ↦ Phase.HoldsTarget.committed)
  · exact fun given hgiven ↦ absurd hgiven (hnot (Q := (· = .flushed given)) (by rintro _ rfl; rfl))
  · rcases hown with rfl | rfl
    · exact htemp f hp
    · rw [hentry] at hp
      cases hp
      exact Or.inr ⟨rfl, hnext.trans (congrArg some hbytes.symm)⟩
  · refine Or.inl (Or.inr ⟨k, given, rfl, hnext, ?_⟩)
    rw [Directory.contents, hentry, Option.map_some, hbytes]

/-- An export gives up its reservation. -/
theorem Inv.release (h : Inv pid info existing w) (huncrossed : Uncrossed pid info)
    (hframe : Frame pid info w k w')
    (halone : ∀ k', (w.phase k').IsOpen → (info k').path = (info k).path → k' = k)
    (hphase : w.phase k = .releasing) (hnext : w'.phase k = .failed)
    (hdisk : w'.disk = w.disk.remove (info k).path) : Inv pid info existing w' := by
  have hfits := (h.kept k).fits
  rw [hphase] at hfits
  have hnothing := ((h.kept k).reserved hfits (hphase ▸ trivial)).2
  have hentry : w'.disk.entry ((info k).temp pid) = w.disk.entry ((info k).temp pid) := by
    rw [hdisk, Directory.remove_entry_of_ne (huncrossed k k).symm]
  refine h.of_frame huncrossed hframe halone ⟨?_, ?_, ?_, ?_⟩ (fun p f hp hown ↦ ?_) ?_
  · intro hopen
    rw [hnext] at hopen
    exact hopen.elim
  · intro _ hopen
    rw [hnext] at hopen
    exact hopen.elim
  · intro given hgiven
    rw [hnext] at hgiven
    cases hgiven
  · rw [hnext]
    trivial
  · rcases hown with rfl | rfl
    · rw [hentry] at hp
      refine (h.found _ f hp).step hframe (fun _ hmay ↦ ?_) (fun _ hp ↦ ?_) fun given hgiven ↦ ?_
      · rw [hphase] at hmay
        exact hmay.elim
      · exact absurd hp.symm (huncrossed k k)
      · rw [hphase] at hgiven
        cases hgiven
    · rw [hdisk, Directory.remove_entry_self] at hp
      cases hp
  · refine Or.inl (Or.inl ?_)
    rw [Directory.contents, hdisk, Directory.remove_entry_self, Option.map_none, hnothing]

/-! ## Orderly runs -/

theorem committed_afterRename (job : Job) (given : List UInt8) :
    (job.afterRename given).committed = some given := by
  unfold Job.afterRename
  split_ifs <;> rfl

theorem Inv.step (h : Inv pid info existing w) (huncrossed : Uncrossed pid info)
    (hstep : Step pid info w k action w') (horderly : Orderly info w k action) :
    Inv pid info existing w' := by
  by_cases hmade : action = .refuse
  · obtain ⟨hact⟩ := hstep
    generalize hphase : w.phase k = phase at hact
    subst hmade
    cases hact with
    | refuse => exact h.refuse hphase
  · have hframe := hstep.frame
    have halone (k' : κ) (hk' : (w.phase k').IsOpen) (hpath : (info k').path = (info k).path) :
        k' = k := h.alone_of_step hstep horderly hk' hpath hmade
    obtain ⟨hown, hreserved, hflushed, hfits⟩ := h.kept k
    obtain @⟨d, phase', hact⟩ := hstep
    have hnext : Function.update w.phase k phase' k = phase' := Function.update_self ..
    have hat (Q : Phase → Prop) (hQ : Q phase') : Q (Function.update w.phase k phase' k) := by
      rwa [hnext]
    have hkeep (hjob : (info k).target.overwrite = true) : ¬ (info k).Reserves :=
      fun hreserves ↦ Bool.false_ne_true (hreserves.2.symm.trans hjob)
    generalize hphase : w.phase k = phase at hact hown hreserved hflushed hfits
    cases hact with
    | refuse => exact absurd rfl hmade
    | reserve hjob hfree =>
        have hholds : Phase.HoldsTarget (Function.update w.phase k .opening k) := hat _ trivial
        refine h.makeTarget huncrossed hframe halone hphase rfl ⟨?_, ?_, ?_, ?_⟩
          ⟨rfl, hjob, hholds⟩ hjob.2 hholds
        · exact fun hopen ↦ (hnext ▸ hopen : Phase.HasFile .opening).elim
        · exact fun _ _ ↦ ⟨Directory.create_entry_self, h.existing_of_free halone hphase hfree⟩
        · exact fun given hgiven ↦ nomatch (hnext ▸ hgiven : Phase.opening = .flushed given)
        · exact hat (Phase.Fits (info k)) hjob
    | openTemp hjob hfree =>
        exact h.makeTemp huncrossed hframe halone hphase hnext rfl (Or.inl hjob.1)
          (fun hreserves ↦ absurd hreserves (hkeep hjob.2)) rfl
    | openTempFails hjob =>
        exact h.goOn huncrossed hframe halone hphase hnext rfl id
          (fun hreserves ↦ absurd hreserves (hkeep hjob.2)) False.elim False.elim nofun nofun
          (Or.inl hjob.1)
    | createTemp hfree =>
        exact h.makeTemp huncrossed hframe halone hphase hnext rfl hfits.usesTemp
          (fun _ ↦ trivial) rfl
    | createTempFails =>
        exact h.goOn huncrossed hframe halone hphase hnext rfl id (fun _ ↦ id) False.elim id nofun
          nofun hfits.usesTemp
    | chunk hjob =>
        exact h.goOn huncrossed hframe halone hphase hnext rfl id (fun _ ↦ id) id id nofun nofun
          trivial
    | progress hold hnew =>
        exact h.goOn huncrossed hframe halone hphase hnext rfl id (fun _ ↦ id) id id nofun nofun
          trivial
    | chunkFails hjob hold hnew | drop hjob hold hnew | flushFails hjob hold hnew =>
        exact h.goOn huncrossed hframe halone hphase hnext rfl False.elim (fun _ ↦ id) id id nofun
          nofun (Or.inl hjob)
    | flush hjob =>
        refine h.goOn huncrossed hframe halone hphase hnext rfl id (fun _ ↦ id) id id nofun ?_
          (Or.inl hjob)
        rintro _ ⟨⟩
        exact Directory.write_bytes_self
    | @create given hjob hfree =>
        have hwhole : ¬ (info k).Streams := fun hstreams ↦ nomatch hstreams.symm.trans hjob
        by_cases htemp : (info k).UsesTemp
        · refine h.makeTemp huncrossed hframe halone hphase hnext ?_ htemp
            (fun hreserves ↦ absurd hreserves.1 hwhole) rfl
          show w.disk.create ((info k).file pid) (.own k) = _
          rw [show (info k).file pid = (info k).temp pid from if_pos htemp]
        · have hfile : (info k).file pid = (info k).path := if_neg htemp
          have hdisk : w.disk.create ((info k).file pid) (.own k) =
              w.disk.create (info k).path (.own k) := by rw [hfile]
          refine h.makeTarget huncrossed hframe halone hphase hdisk ⟨?_, ?_, ?_, ?_⟩
            (Or.inl ⟨hfile.symm, ?_⟩) (overwrite_of_file_eq hfile.symm) ?_
          · exact fun _ ↦ Directory.create_entry_self
          · exact fun hreserves ↦ absurd hreserves.usesTemp htemp
          · exact fun given' hgiven ↦ nomatch (hnext ▸ hgiven : Phase.writing given = .flushed given')
          · exact hat (Phase.Fits (info k)) trivial
          · exact hat Phase.MayHaveFile trivial
          · exact hat Phase.HoldsTarget trivial
    | @write given hjob =>
        cases hoverwrite : (info k).target.overwrite with
        | true =>
            have hafter : (info k).afterWrite given = .flushed given := if_pos hoverwrite
            refine h.goOn huncrossed hframe halone hphase (hnext.trans hafter) rfl id (fun _ ↦ id) id
              id nofun ?_ (Or.inr hoverwrite)
            rintro _ ⟨⟩
            exact Directory.write_bytes_self
        | false =>
            have hafter : (info k).afterWrite given = .succeeded given :=
              if_neg (Bool.eq_false_iff.mp hoverwrite)
            have htemp : ¬ (info k).UsesTemp := by
              rintro (hstreams | htrue)
              · exact hjob hstreams
              · exact Bool.false_ne_true (hoverwrite.symm.trans htrue)
            have hfile : (info k).file pid = (info k).path := if_neg htemp
            refine h.commit huncrossed hframe halone given ?_ ?_ ?_
              Directory.write_bytes_self fun f hf ↦ ?_
            · exact congrArg Phase.committed (hnext.trans hafter)
            · exact hat (Phase.Fits (info k)) (hafter ▸ trivial)
            · exact hfile ▸ hown trivial
            · refine (h.found _ f hf).step hframe (fun hp ↦ ?_) (fun _ hp ↦ ?_) fun g hg ↦ ?_
              · exact absurd (hp.trans hfile) (huncrossed k k).symm
              · exact absurd hp.symm (huncrossed k k)
              · rw [hphase] at hg
                cases hg
    | writeFails => exact horderly.elim
    | @rename given hfile =>
        have hentry : w.disk.entry ((info k).temp pid) = some (.own k) := by
          have := hown trivial
          rwa [show (info k).file pid = (info k).temp pid from if_pos hfits] at this
        refine h.commit huncrossed hframe halone given ?_ ?_ ?_ (hflushed given rfl)
          fun f hf ↦ ?_
        · exact (congrArg Phase.committed hnext).trans (committed_afterRename _ _)
        · refine hat (Phase.Fits (info k)) ?_
          unfold Job.afterRename
          split_ifs
          · exact hfits
          · trivial
        · exact Directory.rename_entry_target.trans hentry
        · rw [Directory.rename_entry_source (huncrossed k k).symm] at hf
          cases hf
    | renameFails =>
        exact h.goOn huncrossed hframe halone hphase hnext rfl False.elim (fun _ ↦ id) id id nofun
          nofun hfits
    | removeTemp =>
        by_cases hjob : (info k).Reserves
        · have hafter : (info k).afterRemove = .releasing := if_pos hjob
          exact h.removeTemp huncrossed hframe halone hphase (hnext.trans hafter) rfl hfits id id
            (fun _ ↦ id) nofun hjob
        · have hafter : (info k).afterRemove = .failed := if_neg hjob
          exact h.removeTemp huncrossed hframe halone hphase (hnext.trans hafter) rfl hfits id
            False.elim (fun hreserves ↦ absurd hreserves hjob) nofun trivial
    | removeTempFails => exact horderly.elim
    | release => exact h.release huncrossed hframe halone hphase hnext rfl
    | releaseFails => exact horderly.elim
    | dropRenamed =>
        exact h.removeTemp huncrossed hframe halone hphase hnext rfl hfits id id (fun _ ↦ id)
          (fun _ ↦ id) trivial
    | dropRenamedFails =>
        exact h.goOn huncrossed hframe halone hphase hnext rfl id (fun _ ↦ id) id id
          (fun _ hgiven ↦ ⟨hgiven, rfl⟩) nofun trivial

omit [DecidableEq κ] in
theorem inv_start : Inv pid info existing (.start existing) := by
  refine ⟨fun _ _ hopen ↦ hopen.elim, fun k ↦ ⟨False.elim, fun _ ↦ False.elim, nofun, trivial⟩,
    fun p f hp ↦ ?_, fun k ↦ Or.inl (Or.inl ?_)⟩
  · obtain ⟨bytes, -, rfl⟩ := Option.map_eq_some_iff.mp hp
    trivial
  · show ((existing (info k).path).map fun _ ↦ _).map _ = existing (info k).path
    cases h : existing (info k).path with
    | none => rfl
    | some bytes => exact congrArg (fun o ↦ some (Option.getD o [])) h

theorem inv_of_reaches (huncrossed : Uncrossed pid info)
    (h : Reaches pid info existing (Orderly info) w) : Inv pid info existing w := by
  induction h with
  | start => exact inv_start
  | step _ hstep horderly ih => exact ih.step huncrossed hstep horderly

omit [DecidableEq κ] in
theorem Inv.atRest (h : Inv pid info existing w) : w.AtRest info existing := by
  rintro _ ⟨k, rfl⟩ hclosed
  rcases h.settled k with (hsame | ⟨k', given, heq, hcommitted, hgiven⟩) | ⟨k', heq, -, hholds⟩
  · exact Or.inl hsame
  · exact Or.inr ⟨k', given, heq, Phase.eq_succeeded hcommitted (hclosed k' heq), hgiven⟩
  · exact absurd hholds.isOpen (hclosed k' heq)

omit [DecidableEq κ] in
theorem Inv.leavesNothing (h : Inv pid info existing w) : w.LeavesNothing := by
  intro k hfailed p f hp hcreator
  have hwhere := h.found p f hp
  cases f with
  | old q => cases hcreator
  | reserved k' =>
      obtain rfl : k' = k := Option.some.inj hcreator
      have hholds := hwhere.2.2
      rw [hfailed] at hholds
      exact hholds
  | own k' =>
      obtain rfl : k' = k := Option.some.inj hcreator
      rcases hwhere with ⟨-, hmay⟩ | ⟨-, hcommitted⟩
      · rw [hfailed] at hmay
        exact hmay
      · rw [hfailed] at hcommitted
        cases hcommitted

theorem Inv.putsOwn (h : Inv pid info existing w)
    (hstep : Step pid info w k action w') : PutsOwn info w k w' := by
  intro given hbefore hafter
  obtain ⟨hown, -, hflushed, hfits⟩ := h.kept k
  obtain @⟨d, phase', hact⟩ := hstep
  change (Function.update w.phase k phase' k).committed = some given at hafter
  rw [Function.update_self] at hafter
  generalize w.phase k = phase at hact hbefore hown hflushed hfits
  cases hact with
  | @write g hjob =>
      cases hoverwrite : (info k).target.overwrite with
      | true =>
          rw [show (info k).afterWrite g = .flushed g from if_pos hoverwrite] at hafter
          cases hafter
      | false =>
          rw [show (info k).afterWrite g = .succeeded g from
            if_neg (Bool.eq_false_iff.mp hoverwrite)] at hafter
          have htemp : ¬ (info k).UsesTemp := by
            rintro (hstreams | htrue)
            · exact hjob hstreams
            · exact Bool.false_ne_true (hoverwrite.symm.trans htrue)
          have hentry := hown trivial
          rw [show (info k).file pid = (info k).path from if_neg htemp] at hentry
          show (w.disk.write (.own k) g).contents (info k).path = some given
          rw [Directory.contents, Directory.write_entry, hentry, Option.map_some,
            Directory.write_bytes_self]
          exact hafter
  | @rename g hfile =>
      rw [committed_afterRename] at hafter
      have hentry := hown trivial
      rw [show (info k).file pid = (info k).temp pid from if_pos hfits] at hentry
      show (w.disk.rename ((info k).temp pid) (info k).path).contents (info k).path = some given
      rw [Directory.contents, Directory.rename_entry_target, hentry, Option.map_some,
        Directory.rename_bytes, hflushed g rfl]
      exact hafter
  | removeTemp =>
      unfold Job.afterRemove at hafter
      split_ifs at hafter <;> cases hafter
  | dropRenamed | dropRenamedFails => cases hbefore
  | reserve | refuse | openTemp | openTempFails | createTemp | createTempFails | chunk | progress
  | chunkFails | drop | flush | flushFails | create | writeFails | renameFails | release
  | releaseFails => cases hafter
  | removeTempFails =>
      unfold Job.afterRemove at hafter
      split_ifs at hafter <;> cases hafter

omit [DecidableEq κ] in
/-- What bears the name of its temporary file is not another's. -/
theorem Inv.eq_of_temp (h : Inv pid info existing w) (huncrossed : Uncrossed pid info)
    (hk : (w.phase k).IsOpen) (hp : w.disk.entry ((info k).temp pid) = some f)
    (hcreator : f.creator = some k') : k' = k := by
  have hwhere := h.found _ f hp
  cases f with
  | old q => cases hcreator
  | reserved k₁ => exact absurd hwhere.1.symm (huncrossed k₁ k)
  | own k₁ =>
      obtain rfl : k₁ = k' := Option.some.inj hcreator
      rcases hwhere with ⟨heq, hmay⟩ | ⟨heq, -⟩
      · rcases file_eq pid (info k₁) with hfile | hfile
        · exact h.alone k k₁ hk hmay.isOpen (Job.path_eq_of_temp_eq (heq.trans hfile)).symm
        · exact absurd (heq.trans hfile).symm (huncrossed k₁ k)
      · exact absurd heq.symm (huncrossed k₁ k)

theorem Inv.sparesOthers (h : Inv pid info existing w) (huncrossed : Uncrossed pid info)
    (hstep : Step pid info w k action w') : SparesOthers w k action w' := by
  intro haction p f k' hp hcreator hk'
  refine ⟨?_, hstep.frame.bytes f fun heq ↦ hk' (Option.some.inj (hcreator.symm.trans heq))⟩
  obtain ⟨hact⟩ := hstep
  have hremoved (hopen : (w.phase k).IsOpen) :
      (w.disk.remove ((info k).temp pid)).entry p = some f := by
    rw [Directory.remove_entry_of_ne ?_, hp]
    rintro rfl
    exact hk' (h.eq_of_temp huncrossed hopen hp hcreator)
  have hcreated {q : Path} {f' : File κ} (hfree : w.disk.entry q = none) :
      (w.disk.create q f').entry p = some f := by
    rw [Directory.create_entry_of_ne ?_, hp]
    rintro rfl
    rw [hp] at hfree
    cases hfree
  have hkept := h.kept k
  generalize hphase : w.phase k = phase at hact hremoved
  cases hact with
  | reserve hjob hfree | openTemp hjob hfree | create hjob hfree => exact hcreated hfree
  | createTemp hfree => exact hcreated hfree
  | rename => exact absurd rfl haction
  | removeTemp | dropRenamed => exact hremoved trivial
  | release =>
      have hfits := hkept.fits
      rw [hphase] at hfits
      show (w.disk.remove (info k).path).entry p = some f
      rw [Directory.remove_entry_of_ne ?_, hp]
      rintro rfl
      rw [(hkept.reserved hfits (hphase ▸ trivial)).1] at hp
      cases hp
      exact hk' (Option.some.inj hcreator).symm
  | refuse | openTempFails | createTempFails | chunk | progress | chunkFails | drop | flush
  | flushFails | write | writeFails | renameFails | removeTempFails | releaseFails
  | dropRenamedFails => exact hp

end

/-! ## Two exports to one target -/

/-- Exports that stream to one target and may replace it. -/
def sameTarget (_ : Bool) : Job := ⟨⟨⟨"exports".toList, "out.csv".toList⟩, true⟩, none⟩

end FrankenSnowflake.ExportPath
