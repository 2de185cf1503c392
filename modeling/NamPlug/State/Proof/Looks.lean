import NamPlug.State.Validate

/-!
# What validation looked at

For each function that reads an asset, the looks behind a result: which file it found at which time
of an evolution of the file system.
-/

namespace NamPlug

open Text

/-- `path` is a regular file of at most `MAX_FILE_HASH_SIZE` bytes, by its metadata. -/
def BoundedFile (F : FileSystem) (path : Path) : Prop :=
  ∃ m, F.metadata path = .ok m ∧ m.isFile = true ∧ m.len ≤ MAX_FILE_HASH_SIZE

/-- The content of `path` is `data`, of at most `MAX_FILE_HASH_SIZE` bytes. -/
def BoundedContent (F : FileSystem) (path : Path) (data : ByteArray) : Prop :=
  F.reading path = .bytes data ∧ data.size ≤ MAX_FILE_HASH_SIZE

variable {world : Nat → FileSystem} {t t' : Nat}

theorem readBounded_run {tooLong : String} {path : Path} {data : ByteArray} :
    (readBounded tooLong path).run world t = (.ok data, t') ↔
      BoundedFile (world t) path ∧ BoundedContent (world (t + 1)) path data ∧ t + 2 = t' := by
  constructor
  · intro h
    obtain ⟨m, t₁, hlook, h⟩ := Probe.run_bind_ok.1 h
    obtain ⟨hm, rfl⟩ := Probe.run_ask_ok.1 hlook
    rw [Probe.mapError_ok] at hm
    split at h
    · cases (Probe.run_fail_ok.1 h)
    rename_i hfile
    split at h
    · cases (Probe.run_fail_ok.1 h)
    rename_i hlen
    obtain ⟨b, t₂, hlook, h⟩ := Probe.run_bind_ok.1 h
    obtain ⟨hb, rfl⟩ := Probe.run_ask_ok.1 hlook
    split at h
    · cases (Probe.run_fail_ok.1 h)
    rename_i hsize
    obtain ⟨rfl, rfl⟩ := Probe.run_pure_ok.1 h
    have hread : (world (t + 1)).reading path = .bytes b := by
      split at hb
      · cases hb
      · cases hb
      · rename_i hr
        rw [hr, Except.ok.inj hb]
    exact ⟨⟨m, hm, by simpa using hfile, Nat.not_lt.1 hlen⟩, ⟨hread, Nat.not_lt.1 hsize⟩, rfl⟩
  · rintro ⟨⟨m, hm, hfile, hlen⟩, ⟨hread, hsize⟩, rfl⟩
    refine Probe.run_bind_ok.2 ⟨m, t + 1, Probe.run_ask_ok.2 ⟨?_, rfl⟩, ?_⟩
    · rw [hm]
      rfl
    rw [if_neg (by simp [hfile]), if_neg (Nat.not_lt.2 hlen)]
    refine Probe.run_bind_ok.2 ⟨data, t + 2, Probe.run_ask_ok.2 ⟨?_, rfl⟩, ?_⟩
    · rw [hread]
    rw [if_neg (Nat.not_lt.2 hsize)]
    rfl

theorem computeFileHash_run {sha256 : ByteArray → String} {path : Path} {digest : String} :
    (computeFileHash sha256 path).run world t = (.ok digest, t') ↔
      BoundedFile (world t) path ∧
        (∃ data, BoundedContent (world (t + 1)) path data ∧ sha256 data = digest) ∧ t + 2 = t' := by
  constructor
  · intro h
    obtain ⟨data, t₁, hdata, h⟩ := Probe.run_bind_ok.1 h
    obtain ⟨hfile, hcontent, rfl⟩ := readBounded_run.1 hdata
    obtain ⟨rfl, rfl⟩ := Probe.run_pure_ok.1 h
    exact ⟨hfile, ⟨data, hcontent, rfl⟩, rfl⟩
  · rintro ⟨hfile, ⟨data, hcontent, rfl⟩, rfl⟩
    exact Probe.run_bind_ok.2 ⟨data, t + 2, readBounded_run.2 ⟨hfile, hcontent, rfl⟩, rfl⟩

/-! ## Models -/

variable {S : StateEngine} {path : Path} {hostRate bufferSize : Nat}

theorem loadAndBuildModel_run {builtFrom : ByteArray} {pair : NamModelPair} :
    (loadAndBuildModel S path).run world t = (.ok (builtFrom, pair), t') ↔
      (world t).reading path = .bytes builtFrom ∧ S.buildModel builtFrom = .ok pair ∧
        t + 1 = t' := by
  unfold loadAndBuildModel
  rw [Probe.run_ask_ok]
  cases hread : (world t).reading path with
  | openError e => simp
  | readError e => simp
  | bytes b =>
    simp only [Probe.map_ok, Prod.mk.injEq, Reading.bytes.injEq]
    constructor
    · rintro ⟨⟨p, hbuild, rfl, rfl⟩, ht⟩
      exact ⟨rfl, hbuild, ht⟩
    · rintro ⟨rfl, hbuild, ht⟩
      exact ⟨⟨pair, hbuild, rfl, rfl⟩, ht⟩

theorem sizeModelResources_ok {modelHash : String} {builtFrom : ByteArray} {pair : NamModelPair}
    {m : ModelResources}
    (h : sizeModelResources S path hostRate bufferSize modelHash builtFrom pair = .ok m) :
    m = ⟨⟨⟨path, modelHash⟩, pair.sampleRate, pair.stereo, pair.channels⟩, builtFrom⟩ := by
  unfold sizeModelResources at h
  split at h
  · cases h
  · obtain ⟨-, -, h⟩ := Probe.bind_ok.1 h
    obtain ⟨-, -, h⟩ := Probe.bind_ok.1 h
    obtain ⟨-, -, h⟩ := Probe.bind_ok.1 h
    exact (Except.ok.inj h).symm

/-- The looks of `build_model_resources` from `t` on: the content it takes the digest of, the one it
builds the model from, and the metadata around them. -/
structure BuildLooks (world : Nat → FileSystem) (path : Path) (t : Nat)
    (hashed builtFrom : ByteArray) : Prop where
  unmodified : ∃ before after, (world t).metadata path = .ok before ∧
    (world (t + 4)).metadata path = .ok after ∧ after.len = before.len ∧
      after.modified = before.modified
  file : BoundedFile (world (t + 1)) path
  hashed : BoundedContent (world (t + 2)) path hashed
  loaded : (world (t + 3)).reading path = .bytes builtFrom

theorem buildModelResources_run {m : ModelResources} :
    (buildModelResources S path hostRate bufferSize).run world t = (.ok m, t') ↔
      ∃ hashed builtFrom pair, BuildLooks world path t hashed builtFrom ∧
        S.buildModel builtFrom = .ok pair ∧
          sizeModelResources S path hostRate bufferSize (S.sha256 hashed) builtFrom pair = .ok m ∧
            t + 5 = t' := by
  constructor
  · intro h
    obtain ⟨before, t₁, hlook, h⟩ := Probe.run_bind_ok.1 h
    obtain ⟨hbefore, rfl⟩ := Probe.run_ask_ok.1 hlook
    obtain ⟨digest, t₂, hhash, h⟩ := Probe.run_bind_ok.1 h
    obtain ⟨hfile, ⟨hashed, hcontent, rfl⟩, rfl⟩ :=
      computeFileHash_run.1 (Probe.run_mapError_ok.1 hhash)
    obtain ⟨⟨builtFrom, pair⟩, t₃, hload, h⟩ := Probe.run_bind_ok.1 h
    obtain ⟨hread, hbuild, rfl⟩ := loadAndBuildModel_run.1 (Probe.run_mapError_ok.1 hload)
    obtain ⟨after, t₄, hlook, h⟩ := Probe.run_bind_ok.1 h
    obtain ⟨hafter, rfl⟩ := Probe.run_ask_ok.1 hlook
    split at h
    · cases (Probe.run_fail_ok.1 h)
    rename_i hsame
    rw [not_or, not_not, not_not] at hsame
    obtain ⟨hsize, rfl⟩ := Probe.run_done_ok.1 h
    exact ⟨hashed, builtFrom, pair, ⟨⟨before, after, Probe.mapError_ok.1 hbefore,
      Probe.mapError_ok.1 hafter, hsame⟩, hfile, hcontent, hread⟩, hbuild, hsize, rfl⟩
  · rintro ⟨hashed, builtFrom, pair, ⟨⟨before, after, hbefore, hafter, hsame⟩, hfile, hcontent,
      hread⟩, hbuild, hsize, rfl⟩
    refine Probe.run_bind_ok.2 ⟨before, t + 1, Probe.run_ask_ok.2
      ⟨Probe.mapError_ok.2 hbefore, rfl⟩, ?_⟩
    refine Probe.run_bind_ok.2 ⟨S.sha256 hashed, t + 3, Probe.run_mapError_ok.2
      (computeFileHash_run.2 ⟨hfile, ⟨hashed, hcontent, rfl⟩, rfl⟩), ?_⟩
    refine Probe.run_bind_ok.2 ⟨(builtFrom, pair), t + 4, Probe.run_mapError_ok.2
      (loadAndBuildModel_run.2 ⟨hread, hbuild, rfl⟩), ?_⟩
    refine Probe.run_bind_ok.2 ⟨after, t + 5, Probe.run_ask_ok.2
      ⟨Probe.mapError_ok.2 hafter, rfl⟩, ?_⟩
    rw [if_neg (by rw [not_or, not_not, not_not]; exact hsame)]
    exact Probe.run_done_ok.2 ⟨hsize, rfl⟩

/-- What is built is the model of the path, with the digest and the content of its two reads. -/
theorem buildModelResources_ok {m : ModelResources}
    (h : (buildModelResources S path hostRate bufferSize).run world t = (.ok m, t')) :
    ∃ hashed, BuildLooks world path t hashed m.builtFrom ∧
      m.file.asset = ⟨path, S.sha256 hashed⟩ ∧ t + 5 = t' := by
  obtain ⟨hashed, builtFrom, pair, hlooks, -, hsize, ht⟩ := buildModelResources_run.1 h
  obtain rfl := sizeModelResources_ok hsize
  exact ⟨hashed, hlooks, rfl, ht⟩

end NamPlug
