import NamPlug.State.Proof.Looks

/-!
# The search for a portable model

What a saved basename refers to in a file system that stays as it is: the first file in the chain
of search directories that lies inside its directory and has the saved digest
(`portable_resolution`). A restore that fails changes nothing, whatever becomes of the file system
while it runs (`restore_error_unchanged`).
-/

namespace NamPlug

open Text

/-! ## What is searched for -/

/-- A single file name: not empty, no separator, no lone or double dot, no NUL. -/
structure CleanName (name : String) : Prop where
  nonempty : name ≠ ""
  slash : '/' ∉ name.toList
  backslash : '\\' ∉ name.toList
  dot : name ≠ "."
  dots : ¬ ['.', '.'] <:+: name.toList
  nul : Char.ofNat 0 ∉ name.toList

structure WellFormedDigest (digest : String) : Prop where
  length : digest.toList.length = 64
  hex : ∀ c ∈ digest.toList, isAsciiHexdigit c

/-- The saved state names a portable model: a clean name and a well-formed digest. -/
structure Refers (loaded : ProcessingParams) (name expected : String) : Prop where
  named : loaded.modelBasename = some name
  clean : CleanName name
  digest : loaded.modelHash = some expected
  wellFormed : WellFormedDigest expected

/-- `c` is what `name` is in `dir`: there, links resolved, and inside `dir`. -/
def Confined (F : FileSystem) (dir : Path) (name : String) (c : Path) : Prop :=
  ∃ d, F.canonicalize dir = some d ∧ F.has (d.join name) = true ∧
    F.canonicalize (d.join name) = some c ∧ c.startsWith d = true

/-- `c` is a regular file of at most `MAX_FILE_HASH_SIZE` bytes with the digest, ignoring case. -/
def HasDigest (S : StateEngine) (F : FileSystem) (c : Path) (expected : String) : Prop :=
  BoundedFile F c ∧
    ∃ data, BoundedContent F c data ∧ eqIgnoreAsciiCase (S.sha256 data) expected = true

def Candidate (S : StateEngine) (F : FileSystem) (name expected : String) (dir c : Path) : Prop :=
  Confined F dir name c ∧ HasDigest S F c expected

/-- The chain of search directories: the saved ones, then the canonical ones that are there. -/
def searchChain (F : FileSystem) (env : HostEnv) (loaded : ProcessingParams) : List Path :=
  loaded.modelSearchPaths ++ env.home.toList.flatMap fun home =>
    [(home.join ".nam").join "models", home.join "NAM Models"].filter F.isDir

/-- `c` is what the first directory that has anything has. -/
def FirstIn (P : Path → Path → Prop) (dirs : List Path) (c : Path) : Prop :=
  ∃ before dir after, dirs = before ++ dir :: after ∧ P dir c ∧ ∀ d ∈ before, ∀ c', ¬ P d c'

/-! ## First candidates -/

variable {P : Path → Path → Prop} {dir c : Path} {dirs : List Path}

theorem firstIn_head (h : P dir c) : FirstIn P (dir :: dirs) c :=
  ⟨[], dir, dirs, rfl, h, fun _ hd => absurd hd List.not_mem_nil⟩

theorem firstIn_tail (hdir : ∀ c', ¬ P dir c') (h : FirstIn P dirs c) :
    FirstIn P (dir :: dirs) c := by
  obtain ⟨before, d, after, rfl, hd, hbefore⟩ := h
  exact ⟨dir :: before, d, after, rfl, hd, List.forall_mem_cons.2 ⟨hdir, hbefore⟩⟩

/-- There is a first candidate where some directory has one. -/
theorem exists_firstIn_iff : (∃ c, FirstIn P dirs c) ↔ ∃ dir ∈ dirs, ∃ c, P dir c := by
  constructor
  · rintro ⟨c, before, dir, after, rfl, hdir, -⟩
    exact ⟨dir, List.mem_append_right _ List.mem_cons_self, c, hdir⟩
  · rintro ⟨dir, hmem, hdir⟩
    induction dirs with
    | nil => cases hmem
    | cons d dirs ih =>
      by_cases hd : ∃ c, P d c
      · exact hd.imp fun _ => firstIn_head
      · rw [not_exists] at hd
        rcases List.mem_cons.1 hmem with rfl | hmem
        · exact absurd hdir (not_exists.2 hd)
        · exact (ih hmem).imp fun _ => firstIn_tail hd

/-! ## Names and digests -/

theorem sanitizeBasename_eq_some_iff {raw name : String} :
    sanitizeBasename raw = some name ↔ name = raw ∧ CleanName raw := by
  unfold sanitizeBasename
  split
  · rename_i hbad
    simp only [reduceCtorEq, false_iff, not_and]
    rintro - ⟨h1, h2, h3, -, h5, h6⟩
    simp [h1, h2, h3, h5, h6] at hbad
  · rename_i hgood
    simp only [not_or] at hgood
    obtain ⟨h1, h2, h3, h4, h5⟩ := hgood
    by_cases hdot : raw = "."
    · have hnone : (Path.ofName raw).fileName = none := by simp [Path.ofName, Path.fileName, hdot]
      rw [hnone]
      simp only [reduceCtorEq, false_iff, not_and]
      rintro - hclean
      exact hclean.dot hdot
    · have hne : raw ≠ ".." := by
        rintro rfl
        exact h4 (by decide)
      have hname : (Path.ofName raw).fileName = some raw := by
        simp [Path.ofName, Path.fileName, hdot, hne, Option.filter]
      simp only [hname, if_true, Option.some.injEq]
      exact ⟨fun h => ⟨h.symm, h1, h2, h3, hdot, h4, h5⟩, fun h => h.1.symm⟩

theorem isValidSha256Hex_iff {digest : String} :
    isValidSha256Hex digest = true ↔ WellFormedDigest digest := by
  unfold isValidSha256Hex
  rw [Bool.and_eq_true, beq_iff_eq, List.all_eq_true]
  exact ⟨fun h => ⟨h.1, h.2⟩, fun h => ⟨h.1, h.2⟩⟩

/-! ## The search -/

section
variable {S : StateEngine} {F : FileSystem} {env : HostEnv} {loaded : ProcessingParams}
variable {hostRate bufferSize : Nat} {name expected : String}

theorem computeFileHash_still {path : Path} {digest : String} :
    (computeFileHash S.sha256 path).still F = .ok digest ↔
      BoundedFile F path ∧ ∃ data, BoundedContent F path data ∧ S.sha256 data = digest := by
  rw [Probe.still_ok]
  constructor
  · rintro ⟨t', h⟩
    obtain ⟨hfile, hdata, -⟩ := computeFileHash_run.1 h
    exact ⟨hfile, hdata⟩
  · rintro ⟨hfile, hdata⟩
    exact ⟨2, computeFileHash_run.2 ⟨hfile, hdata, rfl⟩⟩

theorem canonicalSearchDirs_still {ε : Type} :
    (canonicalSearchDirs env.home : Probe FileSystem ε (List Path)).still F =
      .ok (env.home.toList.flatMap fun home =>
        [(home.join ".nam").join "models", home.join "NAM Models"].filter F.isDir) := by
  cases env.home with
  | none => rfl
  | some home =>
    simp only [canonicalSearchDirs, Probe.still_bind, Probe.still_ask, Probe.still_pure,
      Except.bind, Option.toList_some, List.flatMap_singleton, List.filter_cons, List.filter_nil]
    cases F.isDir ((home.join ".nam").join "models") <;> cases F.isDir (home.join "NAM Models") <;>
      rfl

/-- The confined candidate of a directory, if there is one. -/
def confinedIn (F : FileSystem) (dir : Path) (name : String) : Option Path :=
  (F.canonicalize dir).bind fun d =>
    if F.has (d.join name) then (F.canonicalize (d.join name)).filter (·.startsWith d) else none

theorem confinedIn_eq_some : confinedIn F dir name = some c ↔ Confined F dir name c := by
  unfold confinedIn Confined
  simp only [Option.bind_eq_some_iff, Option.ite_none_right_eq_some, Option.filter_eq_some_iff]

theorem resolveConfinedCandidate_still {ε : Type} :
    (resolveConfinedCandidate dir name : Probe FileSystem ε (Option Path)).still F =
      .ok (confinedIn F dir name) := by
  simp only [resolveConfinedCandidate, confinedIn, Probe.still_bind, Probe.still_ask, Except.bind]
  cases F.canonicalize dir with
  | none => rfl
  | some d =>
    simp only [Probe.still_bind, Probe.still_ask, Except.bind, Option.bind_some]
    split
    · simp only [Probe.still_bind, Probe.still_ask, Except.bind]
      cases F.canonicalize (d.join name) with
      | none => rfl
      | some cand =>
        rw [Option.filter_some]
        rfl
    · rfl

variable (hostRate bufferSize)

theorem searchModel_take (h : Candidate S F name expected dir c) :
    (searchModel S name expected hostRate bufferSize (dir :: dirs)).still F =
      ((buildModelResources S c hostRate bufferSize).still F).mapError .diagnostic := by
  obtain ⟨hconfined, hfile, data, hcontent, heq⟩ := h
  have hhash : (computeFileHash S.sha256 c).still F = .ok (S.sha256 data) :=
    computeFileHash_still.2 ⟨hfile, data, hcontent, rfl⟩
  simp only [searchModel, Probe.still_bind, resolveConfinedCandidate_still,
    confinedIn_eq_some.2 hconfined, Except.bind, Probe.still_attempt, hhash, heq, if_true,
    Probe.still_mapError]

theorem searchModel_skip (h : ∀ c, ¬ Candidate S F name expected dir c) :
    (searchModel S name expected hostRate bufferSize (dir :: dirs)).still F =
      (searchModel S name expected hostRate bufferSize dirs).still F := by
  simp only [searchModel, Probe.still_bind, resolveConfinedCandidate_still, Except.bind]
  cases hc : confinedIn F dir name with
  | none => rfl
  | some c =>
    have hconfined : Confined F dir name c := confinedIn_eq_some.1 hc
    simp only [Probe.still_bind, Probe.still_attempt, Except.bind]
    cases hhash : (computeFileHash S.sha256 c).still F with
    | error e => rfl
    | ok actual =>
      obtain ⟨hfile, data, hcontent, rfl⟩ := computeFileHash_still.1 hhash
      have hne : ¬ eqIgnoreAsciiCase (S.sha256 data) expected = true := fun heq =>
        h c ⟨hconfined, hfile, data, hcontent, heq⟩
      simp only [hne]
      rfl

/-- The first candidate is built. -/
theorem searchModel_first (h : FirstIn (Candidate S F name expected) dirs c) :
    (searchModel S name expected hostRate bufferSize dirs).still F =
      ((buildModelResources S c hostRate bufferSize).still F).mapError .diagnostic := by
  obtain ⟨before, dir, after, rfl, hdir, hbefore⟩ := h
  induction before with
  | nil => exact searchModel_take _ _ hdir
  | cons d before ih =>
    obtain ⟨hd, hrest⟩ := List.forall_mem_cons.1 hbefore
    exact (searchModel_skip _ _ hd).trans (ih hrest)

theorem searchModel_none (h : ∀ dir ∈ dirs, ∀ c, ¬ Candidate S F name expected dir c) :
    (searchModel S name expected hostRate bufferSize dirs).still F =
      .error (.message MODEL_NOT_FOUND_PORTABLE) := by
  induction dirs with
  | nil => rfl
  | cons dir dirs ih =>
    obtain ⟨hdir, hrest⟩ := List.forall_mem_cons.1 h
    exact (searchModel_skip _ _ hdir).trans (ih hrest)

/-! ## The result -/

/-- A name and a digest that refer to something: it is built, and the outcome of the build is that
of the validation. -/
theorem validateModelFromBasename_first (hr : Refers loaded name expected)
    (hc : FirstIn (Candidate S F name expected) (searchChain F env loaded) c) :
    (validateModelFromBasename S env loaded hostRate bufferSize).still F =
      (((buildModelResources S c hostRate bufferSize).still F).map some).mapError .diagnostic := by
  have hclean : sanitizeBasename name = some name := sanitizeBasename_eq_some_iff.2 ⟨rfl, hr.clean⟩
  have hvalid : isValidSha256Hex expected = true := isValidSha256Hex_iff.2 hr.wellFormed
  have hsearch := searchModel_first hostRate bufferSize hc
  simp only [validateModelFromBasename, hr.named, hclean, hr.digest, hvalid, Bool.not_true,
    Bool.false_eq_true, if_false, Probe.still_bind, canonicalSearchDirs_still, Except.bind]
  rw [searchChain] at hsearch
  rw [hsearch]
  cases (buildModelResources S c hostRate bufferSize).still F <;> rfl

/-- A named model that refers to nothing in the chain is an error of the catalogue. -/
theorem validateModelFromBasename_none (hnamed : loaded.modelBasename = some name)
    (h : ∀ expected, Refers loaded name expected →
      ∀ dir ∈ searchChain F env loaded, ∀ c, ¬ Candidate S F name expected dir c) :
    ∃ code, (validateModelFromBasename S env loaded hostRate bufferSize).still F =
      .error (.message code) := by
  simp only [validateModelFromBasename, hnamed]
  cases hclean : sanitizeBasename name with
  | none => exact ⟨_, rfl⟩
  | some clean =>
    obtain ⟨rfl, hname⟩ := sanitizeBasename_eq_some_iff.1 hclean
    cases hdigest : loaded.modelHash with
    | none => exact ⟨_, rfl⟩
    | some expected =>
      simp only
      by_cases hvalid : isValidSha256Hex expected = true
      · have hsearch := searchModel_none hostRate bufferSize
          (h expected ⟨hnamed, hname, hdigest, isValidSha256Hex_iff.1 hvalid⟩)
        rw [searchChain] at hsearch
        simp only [hvalid, Bool.not_true, Bool.false_eq_true, if_false, Probe.still_bind,
          canonicalSearchDirs_still, Except.bind, hsearch]
        exact ⟨_, rfl⟩
      · simp only [hvalid, Bool.not_false, if_true]
        exact ⟨_, rfl⟩

end

/-! ## Failed restores -/

theorem commit_error_unchanged {E : Engine} {s s' : Shared} {v : ValidatedRestore}
    {mode : RestoreMode} {faults : EngineCall → Bool} {e : PluginError}
    (h : s.commit E v mode faults = (s', .error e)) : s' = s := by
  obtain ⟨rfl, herror⟩ := Prod.mk.inj h
  split at herror
  · rename_i hfail
    obtain ⟨hsize, hnone⟩ := hfail
    rw [Shared.commitRestore, if_neg hsize, Shared.atomicCommit, Option.isNone_iff_eq_none.1 hnone]
  · cases herror

/-- **A restore that fails changes nothing**, whatever becomes of the file system meanwhile. -/
theorem restore_error_unchanged {S : StateEngine} {env : HostEnv} {E : Engine} {s s' : Shared}
    {buffer : ByteArray} {mode : RestoreMode} {faults : EngineCall → Bool}
    {world : Nat → FileSystem} {t t' : Nat} {e : PluginError}
    (h : (s.restoreStateTransactional S env E buffer mode faults).run world t =
      (.ok (s', .error e), t')) : s' = s := by
  unfold Shared.restoreStateTransactional at h
  split at h
  · cases h
    rfl
  split at h
  · cases h
    rfl
  obtain ⟨r, t₁, -, h⟩ := Probe.run_bind_ok.1 h
  cases r with
  | error e' =>
    cases h
    rfl
  | ok validated =>
    simp only at h
    split at h
    · rename_i hcommit
      cases h
      exact commit_error_unchanged hcommit
    · cases h

/-! ## The search as a whole -/

/-- **Portable resolution is confined, ordered and fail-closed**. In a file system that stays as it
is, the validation of a basename gives a model exactly where the first candidate of the chain
builds it, from its content and with its path and digest; the diagnostic of the first candidate
where it does not build, nothing exactly where no model is named, and an error where there is no
candidate. No failed restore changes the plugin. -/
theorem portable_resolution (S : StateEngine) (env : HostEnv) (loaded : ProcessingParams)
    (hostRate bufferSize : Nat) (F : FileSystem) (t : Nat) :
    let result := ((validateModelFromBasename S env loaded hostRate bufferSize).run
      (fun _ => F) t).1
    let build := fun c => ((buildModelResources S c hostRate bufferSize).run (fun _ => F) t).1
    let first := fun c => ∃ name expected, Refers loaded name expected ∧
      FirstIn (Candidate S F name expected) (searchChain F env loaded) c
    (∀ m, result = .ok (some m) ↔ ∃ c, first c ∧ build c = .ok m ∧
      F.reading c = .bytes m.builtFrom ∧ m.file.asset = ⟨c, S.sha256 m.builtFrom⟩) ∧
    (∀ c d, first c → build c = .error d → result = .error (.diagnostic d)) ∧
    (result = .ok none ↔ loaded.modelBasename = none) ∧
    (loaded.modelBasename ≠ none → (∀ c, ¬ first c) → ∃ code, result = .error (.message code)) ∧
    ∀ (E : Engine) (s s' : Shared) (buffer : ByteArray) (mode : RestoreMode)
      (faults : EngineCall → Bool) (world : Nat → FileSystem) (t₁ t₂ : Nat) (e : PluginError),
      (s.restoreStateTransactional S env E buffer mode faults).run world t₁ =
        (.ok (s', .error e), t₂) → s' = s := by
  intro result build first
  have hfirst : ∀ c, first c → result = ((build c).map some).mapError .diagnostic := by
    rintro c ⟨name, expected, hr, hc⟩
    simp only [result, build, Probe.run_const]
    exact validateModelFromBasename_first hostRate bufferSize hr hc
  have hunnamed : loaded.modelBasename = none → result = .ok none := by
    intro hnone
    simp only [result, Probe.run_const, validateModelFromBasename, hnone, Probe.still_pure]
  have hnone : loaded.modelBasename ≠ none → (∀ c, ¬ first c) →
      ∃ code, result = .error (.message code) := by
    intro hnamed hc
    obtain ⟨name, hname⟩ := Option.ne_none_iff_exists'.1 hnamed
    simp only [result, Probe.run_const]
    refine validateModelFromBasename_none hostRate bufferSize hname fun expected hr => ?_
    have hno : ¬ ∃ c, FirstIn (Candidate S F name expected) (searchChain F env loaded) c :=
      fun ⟨c, h⟩ => hc c ⟨name, expected, hr, h⟩
    rw [exists_firstIn_iff] at hno
    exact fun dir hdir c h => hno ⟨dir, hdir, c, h⟩
  -- the chain has a first candidate, or there is nothing to build
  have hcases : (∃ c, first c ∧ result = ((build c).map some).mapError .diagnostic) ∨
      (loaded.modelBasename = none ∧ result = .ok none) ∨ ∃ code, result = .error (.message code) := by
    by_cases hex : ∃ c, first c
    · obtain ⟨c, hc⟩ := hex
      exact .inl ⟨c, hc, hfirst c hc⟩
    · by_cases hname : loaded.modelBasename = none
      · exact .inr (.inl ⟨hname, hunnamed hname⟩)
      · exact .inr (.inr (hnone hname (not_exists.1 hex)))
  refine ⟨fun m => ⟨fun hm => ?_, ?_⟩, ?_, ⟨fun hempty => ?_, hunnamed⟩, hnone,
    fun E s s' buffer mode faults world t₁ t₂ e => restore_error_unchanged⟩
  · obtain ⟨c, hc, hbuild⟩ | ⟨-, hbuild⟩ | ⟨code, hbuild⟩ := hcases <;> rw [hm] at hbuild
    · cases hb : build c with
      | error d =>
        rw [hb] at hbuild
        cases hbuild
      | ok m' =>
        rw [hb] at hbuild
        cases hbuild
        obtain ⟨hashed, hlooks, hasset, -⟩ := buildModelResources_ok (Prod.ext hb rfl)
        obtain rfl := Reading.bytes.inj (hlooks.hashed.1.symm.trans hlooks.loaded)
        exact ⟨c, hc, hb, hlooks.loaded, hasset⟩
    · cases hbuild
    · cases hbuild
  · rintro ⟨c, hc, hb, -⟩
    rw [hfirst c hc, hb]
    rfl
  · intro c d hc hb
    rw [hfirst c hc, hb]
    rfl
  · obtain ⟨c, hc, hbuild⟩ | ⟨hname, -⟩ | ⟨code, hbuild⟩ := hcases
    · rw [hempty] at hbuild
      cases hb : build c <;> rw [hb] at hbuild <;> cases hbuild
    · exact hname
    · rw [hempty] at hbuild
      cases hbuild

end NamPlug
