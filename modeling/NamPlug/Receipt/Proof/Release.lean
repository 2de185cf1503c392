import NamPlug.Receipt.Release

/-!
# What a certification says

A release receipt is `CERTIFIED` exactly where the receipts can be read (`Reads`) and every check
passes (`Accepted`, `certified_iff`). What a certification should say (`Certifies`) follows from that
where the receipts declare what the checks read (`Declared`): a gap in another form than a string of
an array, a run id that is missing, and a line of another run are not seen. `certification_sound_iff`.
-/

namespace NamPlug.Receipt

open Text

/-! ## Ordered sets -/

theorem sortedSet_eq_nil {xs : List String} : sortedSet xs = [] ↔ xs = [] := by
  unfold sortedSet
  rw [← List.length_eq_zero_iff, List.length_insertionSort, List.length_eq_zero_iff,
    List.dedup_eq_nil]

theorem mem_sortedSet {xs : List String} {x : String} : x ∈ sortedSet xs ↔ x ∈ xs := by
  unfold sortedSet
  rw [List.mem_insertionSort, List.mem_dedup]

theorem nodup_sortedSet (xs : List String) : (sortedSet xs).Nodup :=
  (List.perm_insertionSort _ _).nodup_iff.2 (List.nodup_dedup xs)

/-- At most one element: all of them are equal. -/
theorem length_sortedSet_le_one {xs : List String} :
    (sortedSet xs).length ≤ 1 ↔ ∀ x ∈ xs, ∀ y ∈ xs, x = y := by
  have hnodup := nodup_sortedSet xs
  constructor
  · intro h x hx y hy
    rw [← mem_sortedSet] at hx hy
    rcases hset : sortedSet xs with _ | ⟨a, _ | ⟨b, l⟩⟩
    · simp [hset] at hx
    · simp only [hset, List.mem_singleton] at hx hy
      rw [hx, hy]
    · simp [hset] at h
  · intro h
    rcases hset : sortedSet xs with _ | ⟨a, _ | ⟨b, l⟩⟩
    · simp
    · simp
    · have hab : a = b := h a (mem_sortedSet.1 (by simp [hset])) b
        (mem_sortedSet.1 (by simp [hset]))
      simp [hset, hab] at hnodup

theorem sortedSet_eq_cons {xs : List String} (h : (sortedSet xs).length = 1) (s : String) :
    sortedSet xs = [s] ↔ s ∈ xs := by
  obtain ⟨a, ha⟩ := List.length_eq_one_iff.1 h
  rw [← mem_sortedSet, ha]
  simp [eq_comm]

/-! ## Findings -/

/-- Nothing speaks against a certification. -/
def Findings.Clean (f : Findings) : Prop := f.fails = [] ∧ f.gaps = []

@[simp] theorem clean_add {a b : Findings} : (a.add b).Clean ↔ a.Clean ∧ b.Clean := by
  simp only [Findings.Clean, Findings.add, List.append_eq_nil_iff]
  tauto

@[simp] theorem clean_empty : ({} : Findings).Clean := ⟨rfl, rfl⟩

@[simp] theorem clean_failWhen {c : Prop} [Decidable c] {token reason : String} :
    (failWhen c token reason).Clean ↔ ¬ c := by
  unfold failWhen Findings.Clean
  split <;> simp_all

section
variable (codec : Codec) (disk : Disk)

/-! ## What can be read -/

/-- The entries of the lines of a receipt. -/
def entriesOf : List String → Option (List Json)
  | [] => some []
  | line :: rest =>
    if (trim line).isEmpty then entriesOf rest
    else
      match codec.value (trim line) with
      | .ok value => (entriesOf rest).map (value :: ·)
      | .error _ => none

/-- The artifact's hash, the build receipt and the entries of the long-audit receipt. -/
structure Evidence where
  sha : String
  build : BuildReceipt
  entries : List Json

structure Reads (artifactPath buildReceiptPath longReceiptPath : String) (ev : Evidence) : Prop where
  artifact : hashFile codec disk artifactPath = .ok ev.sha
  build : ∃ content, readToString disk buildReceiptPath = .ok content ∧
    codec.buildReceipt content = .ok ev.build
  isFile : ((disk longReceiptPath).map FileNode.isFile).getD false = true
  entries : ∃ content, readToString disk longReceiptPath = .ok content ∧
    entriesOf codec (lines content) = some ev.entries

/-! ## The artifact -/

variable {codec disk}

theorem exists_of_hashFile {path sha : String} (h : hashFile codec disk path = .ok sha) :
    ∃ node, disk path = some node := by
  unfold hashFile Disk.read at h
  rcases hnode : disk path with _ | node
  · simp [hnode] at h
  · exact ⟨node, rfl⟩

theorem exists_of_readToString {path content : String}
    (h : readToString disk path = .ok content) : ∃ node, disk path = some node := by
  unfold readToString Disk.read at h
  rcases hnode : disk path with _ | node
  · simp [hnode] at h
  · exact ⟨node, rfl⟩

theorem sha256File_eq_ok {path sha : String} :
    sha256File codec disk path = .ok sha ↔ hashFile codec disk path = .ok sha := by
  unfold sha256File hashFile
  rcases disk.read path with e | e | b <;> simp

theorem checkArtifact_ok {path sha : String} (h : hashFile codec disk path = .ok sha) :
    checkArtifact codec disk path = ({}, sha, true) := by
  obtain ⟨node, hnode⟩ := exists_of_hashFile h
  unfold checkArtifact
  rw [hnode, h]

theorem checkArtifact_clean {path : String} :
    (checkArtifact codec disk path).1.Clean ↔ ∃ sha, hashFile codec disk path = .ok sha := by
  constructor
  · intro h
    unfold checkArtifact at h
    rcases hnode : disk path with _ | node
    · simp [hnode] at h
    rcases hsha : hashFile codec disk path with e | sha
    · simp [hnode, hsha] at h
    · exact ⟨sha, rfl⟩
  · rintro ⟨sha, h⟩
    rw [checkArtifact_ok h]
    exact clean_empty

/-! ## The build receipt -/

/-- What the checks ask of the build receipt. -/
structure BuildAccepted (expectedRunId : Option String) (sha : String) (br : BuildReceipt) :
    Prop where
  sha : br.artifacts.artifactSha256 = sha
  strict : br.strictMode = true
  passed : br.status = "PASSED"
  gaps : br.gaps = []
  runId : ∀ exp rid, givenRunId expectedRunId = some exp → br.provenance.runId = some rid → rid = exp

theorem buildGaps_clean {br : BuildReceipt} : (buildGaps codec br).Clean ↔ br.gaps = [] := by
  unfold buildGaps
  split_ifs with h
  · simp [h]
  · simp [Findings.Clean, h]

theorem buildRunId_clean {br : BuildReceipt} {expectedRunId : Option String} :
    (buildRunId br expectedRunId).Clean ↔
      ∀ exp rid, givenRunId expectedRunId = some exp → br.provenance.runId = some rid →
        rid = exp := by
  unfold buildRunId
  rcases givenRunId expectedRunId with _ | exp <;> rcases br.provenance.runId with _ | rid <;> simp

theorem checkBuildReceipt_clean {br : BuildReceipt} {sha : String} {expectedRunId : Option String} :
    (checkBuildReceipt codec br sha true expectedRunId).Clean ↔
      BuildAccepted expectedRunId sha br := by
  unfold checkBuildReceipt
  simp only [clean_add, clean_failWhen, buildGaps_clean, buildRunId_clean, true_and, not_not,
    Bool.not_eq_false]
  constructor
  · rintro ⟨⟨⟨hsha, hstrict⟩, hpassed⟩, hgaps, hrun⟩
    exact ⟨hsha, hstrict, hpassed, hgaps, hrun⟩
  · rintro ⟨hsha, hstrict, hpassed, hgaps, hrun⟩
    exact ⟨⟨⟨hsha, hstrict⟩, hpassed⟩, hgaps, hrun⟩

theorem readBuildReceipt_ok {path content sha : String} {br : BuildReceipt}
    {expectedRunId : Option String} (hread : readToString disk path = .ok content)
    (hparse : codec.buildReceipt content = .ok br) :
    readBuildReceipt codec disk path sha true expectedRunId =
      (checkBuildReceipt codec br sha true expectedRunId, some br) := by
  obtain ⟨node, hnode⟩ := exists_of_readToString hread
  unfold readBuildReceipt
  simp only [hnode, hread, hparse]

theorem readBuildReceipt_clean {path sha : String} {expectedRunId : Option String} :
    (readBuildReceipt codec disk path sha true expectedRunId).1.Clean ↔
      ∃ content br, readToString disk path = .ok content ∧
        codec.buildReceipt content = .ok br ∧ BuildAccepted expectedRunId sha br := by
  constructor
  · intro h
    rcases hnode : disk path with _ | node
    · simp [readBuildReceipt, hnode] at h
    rcases hread : readToString disk path with e | content
    · simp [readBuildReceipt, hnode, hread] at h
    rcases hparse : codec.buildReceipt content with e | br
    · simp [readBuildReceipt, hnode, hread, hparse] at h
    rw [readBuildReceipt_ok hread hparse] at h
    exact ⟨content, br, rfl, hparse, checkBuildReceipt_clean.1 h⟩
  · rintro ⟨content, br, hread, hparse, hbr⟩
    rw [readBuildReceipt_ok hread hparse]
    exact checkBuildReceipt_clean.2 hbr

/-! ## The declared artifact -/

/-- Every entry declares the hash, and none another path. -/
structure DeclaresArtifact (sha : String) (entries : List Json) : Prop where
  nonempty : entries ≠ []
  sha : ∀ e ∈ entries, e.textField ARTIFACT_SHA256_KEY = some sha
  path : ∀ e ∈ entries, ∀ e' ∈ entries, ∀ p p', e.textField ARTIFACT_PATH_KEY = some p →
    e'.textField ARTIFACT_PATH_KEY = some p' → p = p'

theorem length_filterMap_eq {α β : Type} {f : α → Option β} {xs : List α} :
    (xs.filterMap f).length = xs.length ↔ ∀ x ∈ xs, (f x).isSome = true := by
  induction xs with
  | nil => simp
  | cons x xs ih =>
    have hle := List.length_filterMap_le f xs
    rcases hx : f x with _ | y
    · simp only [List.filterMap_cons_none hx, List.length_cons, List.mem_cons, forall_eq_or_imp, hx]
      constructor
      · intro h
        omega
      · rintro ⟨h, -⟩
        cases h
    · simp [hx, ih]

/-- The artifact declared by a receipt, where one is. -/
theorem declaredArtifact_ok {entries : List Json} {d : DeclaredArtifact}
    (h : declaredArtifact entries = .ok d) : DeclaresArtifact d.sha256 entries := by
  unfold declaredArtifact at h
  dsimp only at h
  split_ifs at h with hsome hall hone hpaths
  rw [not_not] at hall hone
  have hset := sortedSet_eq_cons hone
  rcases hshas : sortedSet (declaredShas entries) with _ | ⟨s, l⟩
  · simp [hshas] at hone
  rw [hshas] at h
  obtain rfl := Except.ok.inj h
  have hall' := length_filterMap_eq.1 hall
  refine ⟨fun hnil => hsome (by simp [hnil, declaredShas]), fun e he => ?_,
    fun e he e' he' p p' hp hp' => ?_⟩
  · obtain ⟨sha, hsha⟩ := Option.isSome_iff_exists.1 (hall' e he)
    have hmem : sha ∈ declaredShas entries := List.mem_filterMap.2 ⟨e, he, hsha⟩
    have hs : s ∈ declaredShas entries := mem_sortedSet.1 (by simp [hshas])
    rw [hsha, length_sortedSet_le_one.1 (Nat.le_of_eq hone) sha hmem s hs]
  · exact length_sortedSet_le_one.1 (Nat.not_lt.1 hpaths) p (List.mem_filterMap.2 ⟨e, he, hp⟩) p'
      (List.mem_filterMap.2 ⟨e', he', hp'⟩)

theorem declaredArtifact_of {entries : List Json} {sha : String}
    (h : DeclaresArtifact sha entries) : ∃ path, declaredArtifact entries = .ok ⟨path, sha⟩ := by
  have hall : (declaredShas entries).length = entries.length :=
    length_filterMap_eq.2 fun e he => by rw [h.sha e he]; rfl
  have hpos : (declaredShas entries).length ≠ 0 := by
    rw [hall]
    exact fun hnil => h.nonempty (List.length_eq_zero_iff.1 hnil)
  have hsame : ∀ x ∈ declaredShas entries, x = sha := by
    intro x hx
    obtain ⟨e, he, hx⟩ := List.mem_filterMap.1 hx
    exact Option.some.inj (hx.symm.trans (h.sha e he))
  have hne : sortedSet (declaredShas entries) ≠ [] := fun hnil =>
    hpos (List.length_eq_zero_iff.2 (sortedSet_eq_nil.1 hnil))
  have hone : (sortedSet (declaredShas entries)).length = 1 :=
    Nat.le_antisymm (length_sortedSet_le_one.2 fun x hx y hy => (hsame x hx).trans (hsame y hy).symm)
      (List.length_pos_of_ne_nil hne)
  have hpaths : ¬ 1 < (sortedSet (entries.filterMap (·.textField ARTIFACT_PATH_KEY))).length := by
    refine Nat.not_lt.2 (length_sortedSet_le_one.2 fun p hp p' hp' => ?_)
    obtain ⟨e, he, hp⟩ := List.mem_filterMap.1 hp
    obtain ⟨e', he', hp'⟩ := List.mem_filterMap.1 hp'
    exact h.path e he e' he' p p' hp hp'
  obtain ⟨s, hs⟩ := List.length_eq_one_iff.1 hone
  have hs' : s = sha := hsame s (mem_sortedSet.1 (by simp [hs]))
  unfold declaredArtifact
  dsimp only
  rw [if_neg hpos, if_neg (not_not.2 hall), if_neg (not_not.2 hone), if_neg hpaths, hs, hs']
  exact ⟨_, rfl⟩

/-! ## The entries -/

theorem readToString_eq_ok {path content : String} : readToString disk path = .ok content ↔
    disk.read path = .bytes content.toUTF8 := by
  unfold readToString
  constructor
  · intro h
    rcases hbytes : disk.read path with e | e | b
    · simp [hbytes] at h
    · simp [hbytes] at h
    rcases hutf8 : String.fromUTF8? b with _ | s
    · simp [hbytes, hutf8] at h
    · simp only [hbytes, hutf8] at h
      obtain rfl := Except.ok.inj h
      rw [toUTF8_of_fromUTF8 hutf8]
  · intro h
    rw [h]
    dsimp only
    rw [fromUTF8_toUTF8]

theorem parseLines_eq_ok {path : String} {ls : List String} :
    ∀ {lineNo : Nat} {es : List Json},
      parseLines codec path lineNo (ls.map .ok) = .ok es ↔ entriesOf codec ls = some es := by
  induction ls with
  | nil => simp [parseLines, entriesOf]
  | cons line ls ih =>
    intro lineNo es
    simp only [List.map_cons, parseLines, entriesOf]
    split_ifs
    · exact ih
    · rcases codec.value (trim line) with e | value
      · simp
      · dsimp only
        rcases hrest : parseLines codec path (lineNo + 1) (ls.map .ok) with e | es'
        · rcases hes : entriesOf codec ls with _ | es'
          · simp [Except.map]
          · exact absurd (hrest.symm.trans (ih.2 hes)) (by simp)
        · simp [Except.map, ih.1 hrest]

theorem readReceiptEntries_eq_ok {path content : String} {es : List Json}
    (hread : readToString disk path = .ok content) :
    readReceiptEntries codec disk path = .ok es ↔
      entriesOf codec (lines content) = some es ∧ es ≠ [] := by
  unfold readReceiptEntries
  rw [readToString_eq_ok.1 hread]
  dsimp only
  rw [codec.bufLines_text content]
  rcases hparse : parseLines codec path 0 ((lines content).map .ok) with e | es'
  · dsimp only
    constructor
    · intro h
      cases h
    · rintro ⟨hes, -⟩
      rw [parseLines_eq_ok.2 hes] at hparse
      cases hparse
  · rw [parseLines_eq_ok.1 hparse]
    rcases es' with _ | ⟨v, es'⟩
    · dsimp only
      constructor
      · intro h
        cases h
      · rintro ⟨hes, hne⟩
        exact absurd (Option.some.inj hes).symm hne
    · dsimp only
      constructor
      · intro h
        obtain rfl := Except.ok.inj h
        exact ⟨rfl, by simp⟩
      · rintro ⟨hes, -⟩
        rw [Option.some.inj hes]

/-- The long audit matches the artifact. -/
theorem verifyReceiptArtifact_matched {longReceiptPath artifactPath d : String} :
    verifyReceiptArtifact codec disk longReceiptPath artifactPath = .matched d ↔
      ((disk longReceiptPath).map FileNode.isFile).getD false = true ∧
        ∃ es, readReceiptEntries codec disk longReceiptPath = .ok es ∧ DeclaresArtifact d es ∧
          hashFile codec disk artifactPath = .ok d := by
  constructor
  · intro h
    unfold verifyReceiptArtifact at h
    split_ifs at h with hfile
    refine ⟨by simpa using hfile, ?_⟩
    rcases hes : readReceiptEntries codec disk longReceiptPath with e | es
    · simp [hes] at h
    rcases hdeclared : declaredArtifact es with kind | declared
    · cases kind <;> simp [hes, hdeclared] at h
    rcases hsha : sha256File codec disk artifactPath with e | actual
    · simp [hes, hdeclared, hsha] at h
    simp only [hes, hdeclared, hsha] at h
    split_ifs at h with heq
    obtain rfl := ArtifactConsistency.matched.inj h
    refine ⟨es, rfl, declaredArtifact_ok hdeclared, ?_⟩
    rw [heq]
    exact sha256File_eq_ok.1 hsha
  · rintro ⟨hfile, es, hes, hdeclares, hsha⟩
    obtain ⟨path, hdeclared⟩ := declaredArtifact_of hdeclares
    unfold verifyReceiptArtifact
    rw [if_neg (by simp [hfile])]
    simp only [hes, hdeclared, sha256File_eq_ok.2 hsha, if_true]

theorem checkConsistency_clean {consistency : ArtifactConsistency} {sha : String} :
    (checkConsistency codec consistency sha true).Clean ↔ consistency = .matched sha := by
  unfold checkConsistency
  cases consistency <;> simp

/-! ## The lines -/

/-- What the checks ask of a line. -/
structure LineAccepted (expectedRunId : Option String) (e : Json) : Prop where
  passed : e.text "status" = "PASSED"
  gaps : phaseGaps e = []
  runId : ∀ exp rid, givenRunId expectedRunId = some exp → e.textField "run_id" = some rid →
    rid = exp

/-- The run id of the last line that has one. -/
def lastRunId (es : List Json) (init : Option String) : Option String :=
  es.foldl (fun last e => (e.textField "run_id").or last) init

/-- The phases that lines are of. -/
def phasesOf (es : List Json) : List String :=
  (es.map (·.text "phase_id")).filter fun pid => !pid.isEmpty

theorem scanValue_clean {expectedRunId : Option String} {lineNo : Nat} {value : Json}
    {scan : LongScan} : (scanValue expectedRunId lineNo value scan).findings.Clean ↔
      scan.findings.Clean ∧ LineAccepted expectedRunId value := by
  have hgaps : (lineGaps (summarizePhase value)).Clean ↔ phaseGaps value = [] := by
    simp [lineGaps, Findings.Clean, summarizePhase]
  have hrun : (lineRunId expectedRunId (value.textField "run_id") lineNo).Clean ↔
      ∀ exp rid, givenRunId expectedRunId = some exp → value.textField "run_id" = some rid →
        rid = exp := by
    unfold lineRunId
    rcases givenRunId expectedRunId with _ | exp <;>
      rcases value.textField "run_id" with _ | rid <;> simp
  have hstatus : (lineStatus (summarizePhase value)).Clean ↔ value.text "status" = "PASSED" :=
    clean_failWhen.trans not_not
  unfold scanValue
  simp only [clean_add, hgaps, hrun, hstatus]
  constructor
  · rintro ⟨hscan, hg, hr, hs⟩
    exact ⟨hscan, hs, hg, hr⟩
  · rintro ⟨hscan, hs, hg, hr⟩
    exact ⟨hscan, hg, hr, hs⟩

/-- The lines of a receipt that is all JSON. -/
theorem scanLines_ok (expectedRunId : Option String) {ls : List String} :
    ∀ {es : List Json} (idx : Nat) (scan : LongScan), entriesOf codec ls = some es →
      ((scanLines codec expectedRunId idx ls scan).findings.Clean ↔
          scan.findings.Clean ∧ ∀ e ∈ es, LineAccepted expectedRunId e) ∧
        (scanLines codec expectedRunId idx ls scan).seenPhases = scan.seenPhases ++ phasesOf es ∧
        (scanLines codec expectedRunId idx ls scan).runId = lastRunId es scan.runId := by
  induction ls with
  | nil =>
    intro es idx scan hes
    obtain rfl := Option.some.inj hes
    simp [scanLines, phasesOf, lastRunId]
  | cons line ls ih =>
    intro es idx scan hes
    unfold entriesOf at hes
    unfold scanLines
    split_ifs at hes ⊢ with hblank
    · exact ih (idx + 1) scan hes
    rcases hvalue : codec.value (trim line) with e | value
    · simp [hvalue] at hes
    simp only [hvalue, Option.map_eq_some_iff] at hes ⊢
    obtain ⟨es', hrest, rfl⟩ := hes
    obtain ⟨hclean, hseen, hrun⟩ := ih (idx + 1) (scanValue expectedRunId (idx + 1) value scan) hrest
    refine ⟨?_, ?_, hrun⟩
    · rw [hclean, scanValue_clean, List.forall_mem_cons, and_assoc]
    · rw [hseen]
      unfold phasesOf scanValue summarizePhase
      dsimp only
      by_cases hpid : (value.text "phase_id").isEmpty = true
      · simp [hpid]
      · simp [hpid]

/-- A line that is not JSON is held against the receipt, whatever follows. -/
theorem scanLines_clean {expectedRunId : Option String} {ls : List String} :
    ∀ {idx : Nat} {scan : LongScan},
      (scanLines codec expectedRunId idx ls scan).findings.Clean →
        scan.findings.Clean ∧ ∃ es, entriesOf codec ls = some es := by
  induction ls with
  | nil =>
    intro idx scan h
    exact ⟨h, [], rfl⟩
  | cons line ls ih =>
    intro idx scan h
    unfold scanLines at h
    unfold entriesOf
    split_ifs at h ⊢ with hblank
    · exact ih h
    rcases hvalue : codec.value (trim line) with e | value
    · simp only [hvalue] at h
      obtain ⟨hbad, -⟩ := ih h
      simp at hbad
    · simp only [hvalue] at h ⊢
      obtain ⟨hscan, es, hes⟩ := ih h
      rw [hes]
      exact ⟨(scanValue_clean.1 hscan).1, value :: es, rfl⟩

theorem missingPhases_clean {seen : List String} :
    (missingPhases seen).Clean ↔ ∀ req ∈ LONG_ROSTER, req ∈ seen := by
  simp [missingPhases, Findings.Clean, List.filter_eq_nil_iff]

/-- What the checks ask of the entries of the long-audit receipt. -/
structure EntriesAccepted (expectedRunId : Option String) (sha : String) (es : List Json) :
    Prop where
  artifact : DeclaresArtifact sha es
  lines : ∀ e ∈ es, LineAccepted expectedRunId e
  phases : ∀ req ∈ LONG_ROSTER, req ∈ phasesOf es

theorem readLongReceipt_ok {longReceiptPath artifactPath content sha : String} {es : List Json}
    (expectedRunId : Option String) (hsha : hashFile codec disk artifactPath = .ok sha)
    (hfile : ((disk longReceiptPath).map FileNode.isFile).getD false = true)
    (hread : readToString disk longReceiptPath = .ok content)
    (hes : entriesOf codec (lines content) = some es) :
    ((readLongReceipt codec disk longReceiptPath artifactPath sha true
        expectedRunId).1.findings.Clean ↔ EntriesAccepted expectedRunId sha es) ∧
      (readLongReceipt codec disk longReceiptPath artifactPath sha true expectedRunId).1.runId =
        lastRunId es none := by
  obtain ⟨node, hnode⟩ := exists_of_readToString hread
  unfold readLongReceipt
  simp only [hnode, hread]
  obtain ⟨hclean, hseen, hrun⟩ := scanLines_ok expectedRunId 0
    { findings := checkConsistency codec
        (verifyReceiptArtifact codec disk longReceiptPath artifactPath) sha true } hes
  refine ⟨?_, hrun⟩
  rw [clean_add, hclean, hseen, missingPhases_clean, checkConsistency_clean,
    verifyReceiptArtifact_matched, List.nil_append]
  constructor
  · rintro ⟨⟨⟨-, es', hes', hartifact, -⟩, hlines⟩, hphases⟩
    obtain ⟨heq, -⟩ := (readReceiptEntries_eq_ok hread).1 hes'
    obtain rfl := Option.some.inj (hes.symm.trans heq)
    exact ⟨hartifact, hlines, hphases⟩
  · rintro ⟨hartifact, hlines, hphases⟩
    have hentries := (readReceiptEntries_eq_ok hread).2 ⟨hes, hartifact.nonempty⟩
    exact ⟨⟨⟨hfile, es, hentries, hartifact, hsha⟩, hlines⟩, hphases⟩

/-- A clean long-audit receipt can be read. -/
theorem readLongReceipt_clean {longReceiptPath artifactPath sha : String}
    {expectedRunId : Option String}
    (h : (readLongReceipt codec disk longReceiptPath artifactPath sha true
      expectedRunId).1.findings.Clean) :
    ((disk longReceiptPath).map FileNode.isFile).getD false = true ∧
      ∃ content es, readToString disk longReceiptPath = .ok content ∧
        entriesOf codec (lines content) = some es := by
  rcases hnode : disk longReceiptPath with _ | node
  · simp [readLongReceipt, hnode] at h
  rcases hread : readToString disk longReceiptPath with e | content
  · simp [readLongReceipt, hnode, hread] at h
  simp only [readLongReceipt, hnode, hread, clean_add] at h
  obtain ⟨hconsistency, es, hes⟩ := scanLines_clean h.1
  obtain ⟨hfile, -⟩ := verifyReceiptArtifact_matched.1 (checkConsistency_clean.1 hconsistency)
  rw [hnode] at hfile
  exact ⟨hfile, content, es, rfl, hes⟩

/-! ## The verdict -/

/-- What the checks ask of the receipts. -/
structure Accepted (expectedRunId : Option String) (ev : Evidence) : Prop where
  build : BuildAccepted expectedRunId ev.sha ev.build
  entries : EntriesAccepted expectedRunId ev.sha ev.entries
  cross : ∀ rid last, ev.build.provenance.runId = some rid →
    lastRunId ev.entries none = some last → rid ≠ "" → rid = last

theorem lastRunId_mem {es : List Json} : ∀ (init : Option String) {last : String},
    lastRunId es init = some last → init = some last ∨ ∃ e ∈ es, e.textField "run_id" = some last := by
  induction es with
  | nil =>
    intro init last h
    exact .inl h
  | cons e es ih =>
    intro init last h
    rcases ih ((e.textField "run_id").or init) h with hlast | ⟨e', he', hlast⟩
    · rcases Option.or_eq_some_iff.1 hlast with hlast | ⟨-, hlast⟩
      · exact .inr ⟨e, by simp, hlast⟩
      · exact .inl hlast
    · exact .inr ⟨e', by simp [he'], hlast⟩

theorem crossRunId_clean {br : BuildReceipt} {es : List Json} :
    (crossRunId (some br) (lastRunId es none)).Clean ↔
      ∀ rid last, br.provenance.runId = some rid → lastRunId es none = some last → rid ≠ "" →
        rid = last := by
  unfold crossRunId
  rw [Option.bind_some]
  rcases hrid : br.provenance.runId with _ | rid
  · simp
  rcases hlast : lastRunId es none with _ | last
  · simp
  have hne : last ≠ "" := by
    rcases lastRunId_mem none hlast with h | ⟨e, -, h⟩
    · cases h
    · exact Json.textField_nonempty h
  simp [hne]

theorem status_eq (f : Findings) :
    (if sortedSet f.fails = [] ∧ sortedSet f.gaps = [] then "CERTIFIED" else "REJECTED") =
      "CERTIFIED" ↔ f.Clean := by
  split_ifs with h
  · simpa [Findings.Clean, sortedSet_eq_nil] using h
  · simpa [Findings.Clean, sortedSet_eq_nil] using h

/-- The verdict: the receipts can be read, and every check passes. -/
theorem certified_iff (now : Nat) (artifactPath buildReceiptPath longReceiptPath : String)
    (strictRequested : Bool) (expectedRunId : Option String) :
    (evaluateCertification codec disk now artifactPath buildReceiptPath longReceiptPath
        strictRequested expectedRunId).status = "CERTIFIED" ↔
      ∃ ev, Reads codec disk artifactPath buildReceiptPath longReceiptPath ev ∧
        Accepted expectedRunId ev := by
  have hstatus : (evaluateCertification codec disk now artifactPath buildReceiptPath
      longReceiptPath strictRequested expectedRunId).status = "CERTIFIED" ↔
      (checkArtifact codec disk artifactPath).1.Clean ∧
        (readBuildReceipt codec disk buildReceiptPath (checkArtifact codec disk artifactPath).2.1
          (checkArtifact codec disk artifactPath).2.2 expectedRunId).1.Clean ∧
        (readLongReceipt codec disk longReceiptPath artifactPath
          (checkArtifact codec disk artifactPath).2.1 (checkArtifact codec disk artifactPath).2.2
          expectedRunId).1.findings.Clean ∧
        (crossRunId (readBuildReceipt codec disk buildReceiptPath
            (checkArtifact codec disk artifactPath).2.1
            (checkArtifact codec disk artifactPath).2.2 expectedRunId).2
          (readLongReceipt codec disk longReceiptPath artifactPath
            (checkArtifact codec disk artifactPath).2.1 (checkArtifact codec disk artifactPath).2.2
            expectedRunId).1.runId).Clean := by
    unfold evaluateCertification
    dsimp only
    rw [status_eq]
    simp only [clean_add, and_assoc]
  rw [hstatus]
  constructor
  · rintro ⟨hartifact, hbuild, hlong, hcross⟩
    obtain ⟨sha, hsha⟩ := checkArtifact_clean.1 hartifact
    rw [checkArtifact_ok hsha] at hbuild hlong hcross
    obtain ⟨text, br, hread, hparse, hbr⟩ := readBuildReceipt_clean.1 hbuild
    obtain ⟨hfile, content, es, hcontent, hes⟩ := readLongReceipt_clean hlong
    obtain ⟨hclean, hrun⟩ := readLongReceipt_ok expectedRunId hsha hfile hcontent hes
    rw [readBuildReceipt_ok hread hparse, hrun, crossRunId_clean] at hcross
    exact ⟨⟨sha, br, es⟩, ⟨hsha, ⟨text, hread, hparse⟩, hfile, content, hcontent, hes⟩, hbr,
      hclean.1 hlong, hcross⟩
  · rintro ⟨⟨sha, br, es⟩, ⟨hsha, ⟨text, hread, hparse⟩, hfile, content, hcontent, hes⟩, hbr, hentries,
      hcross⟩
    dsimp only at *
    obtain ⟨hclean, hrun⟩ := readLongReceipt_ok expectedRunId hsha hfile hcontent hes
    rw [checkArtifact_ok hsha]
    dsimp only
    rw [readBuildReceipt_ok hread hparse, hrun, crossRunId_clean]
    exact ⟨clean_empty, checkBuildReceipt_clean.2 hbr, hclean.2 hentries, hcross⟩

/-! ## What a certification should say -/

/-- The receipts are of one artifact and one run, and nothing in them speaks against it. -/
structure Certifies (expectedRunId : Option String) (ev : Evidence) : Prop where
  buildSha : ev.build.artifacts.artifactSha256 = ev.sha
  lineSha : ∀ e ∈ ev.entries, e.get ARTIFACT_SHA256_KEY = some (.string ev.sha)
  strict : ev.build.strictMode = true
  buildPassed : ev.build.status = "PASSED"
  buildGaps : ev.build.gaps = []
  phases : ∀ req ∈ LONG_ROSTER, ∃ e ∈ ev.entries, e.get "phase_id" = some (.string req)
  linePassed : ∀ e ∈ ev.entries, e.get "status" = some (.string "PASSED")
  lineGaps : ∀ e ∈ ev.entries, ∀ g, e.get "gaps" = some g → g.isVacant = true
  runId : ∃ rid, rid ≠ "" ∧ ev.build.provenance.runId = some rid ∧
    (∀ e ∈ ev.entries, e.get "run_id" = some (.string rid)) ∧
    ∀ exp, expectedRunId = some exp → exp ≠ "" → rid = exp

/-- A gap in a form that the check of a line does not read. -/
def StrayGap (e : Json) : Prop :=
  ∃ g, e.get "gaps" = some g ∧
    match g with
    | .array xs => ∃ x ∈ xs, x.asString = none ∧ x.isVacant = false
    | g => g.isVacant = false

/-- Every gap is a string of an array, the build receipt and every line have a run id, and where none
is expected the lines have the same. -/
structure Declared (expectedRunId : Option String) (ev : Evidence) : Prop where
  gaps : ∀ e ∈ ev.entries, ¬ StrayGap e
  build : ∃ rid, rid ≠ "" ∧ ev.build.provenance.runId = some rid
  lines : ∀ e ∈ ev.entries, ∃ rid, e.textField "run_id" = some rid
  same : givenRunId expectedRunId = none → ∀ e ∈ ev.entries, ∀ e' ∈ ev.entries,
    e.textField "run_id" = e'.textField "run_id"

theorem givenRunId_eq_some {expectedRunId : Option String} {exp : String} :
    givenRunId expectedRunId = some exp ↔ expectedRunId = some exp ∧ exp ≠ "" := by
  unfold givenRunId
  rcases expectedRunId with _ | s
  · simp
  · rw [Option.filter_eq_some_iff]
    simp

/-- A line without a gap that the check reads, and none that it does not read, has no gap. -/
theorem vacant_iff {e : Json} (hread : phaseGaps e = []) :
    (∀ g, e.get "gaps" = some g → g.isVacant = true) ↔ ¬ StrayGap e := by
  unfold StrayGap phaseGaps at *
  rcases hget : e.get "gaps" with _ | g
  · simp
  rcases g with _ | _ | _ | _ | _ | xs | _
  case array =>
    simp only [hget, Option.bind_some, Json.asArray, Option.getD_some,
      List.filterMap_eq_nil_iff] at hread
    have hstring : ∀ x ∈ xs, ∀ s, x.asString = some s → x.isVacant = true := by
      intro x hx s hs
      have hempty := hread x hx
      rw [hs] at hempty
      rcases x with _ | _ | _ | _ | t | _ | _ <;> simp [Json.asString] at hs
      subst hs
      simpa [Option.filter, Json.isVacant] using hempty
    constructor
    · rintro h ⟨g, hg, hstray⟩
      obtain rfl := Option.some.inj hg
      obtain ⟨x, hx, -, hvacant⟩ := hstray
      have hall := (Json.allVacant_iff xs).1 (h _ rfl) x hx
      rw [hall] at hvacant
      cases hvacant
    · intro h g hg
      obtain rfl := Option.some.inj hg
      refine (Json.allVacant_iff xs).2 fun x hx => ?_
      rcases hs : x.asString with _ | s
      · by_contra hvacant
        exact h ⟨_, rfl, x, hx, hs, Bool.eq_false_iff.2 hvacant⟩
      · exact hstring x hx s hs
  all_goals simp

theorem mem_phasesOf {es : List Json} {req : String} (hne : req ≠ "") :
    req ∈ phasesOf es ↔ ∃ e ∈ es, e.get "phase_id" = some (.string req) := by
  unfold phasesOf
  rw [List.mem_filter, List.mem_map]
  constructor
  · rintro ⟨⟨e, he, hreq⟩, -⟩
    exact ⟨e, he, Json.get_of_text hreq hne⟩
  · rintro ⟨e, he, hreq⟩
    exact ⟨⟨e, he, by simp [Json.text, hreq, Json.asString]⟩, by simpa using hne⟩

theorem roster_nonempty : ∀ req ∈ LONG_ROSTER, req ≠ "" := by decide

/-- The last run id of lines that all have the same. -/
theorem lastRunId_same {rid : String} : ∀ {es : List Json} (init : Option String), es ≠ [] →
    (∀ e ∈ es, e.textField "run_id" = some rid) → lastRunId es init = some rid := by
  intro es
  induction es with
  | nil =>
    intro init h
    exact absurd rfl h
  | cons e es ih =>
    intro init _ hsame
    have he := hsame e (by simp)
    rcases es with _ | ⟨e', es⟩
    · simp [lastRunId, he]
    · have hrest := ih ((e.textField "run_id").or init) (by simp)
        fun e'' he'' => hsame e'' (List.mem_cons_of_mem _ he'')
      simpa [lastRunId] using hrest

/-- One run id for all, from what is accepted and declared. -/
theorem one_runId {expectedRunId : Option String} {ev : Evidence}
    (hacc : Accepted expectedRunId ev) (hdecl : Declared expectedRunId ev) :
    ∃ rid, rid ≠ "" ∧ ev.build.provenance.runId = some rid ∧
      (∀ e ∈ ev.entries, e.textField "run_id" = some rid) ∧
      ∀ exp, givenRunId expectedRunId = some exp → rid = exp := by
  obtain ⟨rid, hne, hbuild⟩ := hdecl.build
  refine ⟨rid, hne, hbuild, ?_, fun exp hexp => hacc.build.runId exp rid hexp hbuild⟩
  rcases hexp : givenRunId expectedRunId with _ | exp
  · -- the lines have one run id, and the last one that of the build
    obtain ⟨e₀, he₀⟩ := List.exists_mem_of_ne_nil _ hacc.entries.artifact.nonempty
    obtain ⟨rid₀, hrid₀⟩ := hdecl.lines e₀ he₀
    have hsame : ∀ e ∈ ev.entries, e.textField "run_id" = some rid₀ := fun e he =>
      (hdecl.same hexp e he e₀ he₀).trans hrid₀
    have hlast := lastRunId_same none hacc.entries.artifact.nonempty hsame
    rw [hacc.cross rid rid₀ hbuild hlast hne]
    exact hsame
  · intro e he
    obtain ⟨lineRid, hline⟩ := hdecl.lines e he
    rw [hline, (hacc.entries.lines e he).runId exp lineRid hexp hline,
      hacc.build.runId exp rid hexp hbuild]

theorem Accepted.certifies {expectedRunId : Option String} {ev : Evidence}
    (hacc : Accepted expectedRunId ev) (hdecl : Declared expectedRunId ev) :
    Certifies expectedRunId ev where
  buildSha := hacc.build.sha
  lineSha e he := (Json.textField_eq_some.1 (hacc.entries.artifact.sha e he)).1
  strict := hacc.build.strict
  buildPassed := hacc.build.passed
  buildGaps := hacc.build.gaps
  phases req hreq := (mem_phasesOf (roster_nonempty req hreq)).1 (hacc.entries.phases req hreq)
  linePassed e he := Json.get_of_text (hacc.entries.lines e he).passed (by decide)
  lineGaps e he := (vacant_iff (hacc.entries.lines e he).gaps).2 (hdecl.gaps e he)
  runId := by
    obtain ⟨rid, hne, hbuild, hlines, hexp⟩ := one_runId hacc hdecl
    refine ⟨rid, hne, hbuild, fun e he => (Json.textField_eq_some.1 (hlines e he)).1, ?_⟩
    intro exp hgiven hnonempty
    exact hexp exp (givenRunId_eq_some.2 ⟨hgiven, hnonempty⟩)

theorem Certifies.declared {expectedRunId : Option String} {ev : Evidence}
    (hacc : Accepted expectedRunId ev) (hcert : Certifies expectedRunId ev) :
    Declared expectedRunId ev := by
  obtain ⟨rid, hne, hbuild, hlines, -⟩ := hcert.runId
  have htext : ∀ e ∈ ev.entries, e.textField "run_id" = some rid := fun e he =>
    Json.textField_of_get (hlines e he) hne
  constructor
  · exact fun e he => (vacant_iff (hacc.entries.lines e he).gaps).1 (hcert.lineGaps e he)
  · exact ⟨rid, hne, hbuild⟩
  · exact fun e he => ⟨rid, htext e he⟩
  · exact fun _ e he e' he' => (htext e he).trans (htext e' he').symm

/-- What is read is determined by the files. -/
theorem Reads.unique {artifactPath buildReceiptPath longReceiptPath : String} {ev ev' : Evidence}
    (h : Reads codec disk artifactPath buildReceiptPath longReceiptPath ev)
    (h' : Reads codec disk artifactPath buildReceiptPath longReceiptPath ev') : ev = ev' := by
  obtain ⟨sha, br, es⟩ := ev
  obtain ⟨sha', br', es'⟩ := ev'
  obtain ⟨hsha, ⟨text, hread, hparse⟩, -, content, hcontent, hes⟩ := h
  obtain ⟨hsha', ⟨text', hread', hparse'⟩, -, content', hcontent', hes'⟩ := h'
  dsimp only at *
  obtain rfl := Except.ok.inj (hsha.symm.trans hsha')
  obtain rfl := Except.ok.inj (hread.symm.trans hread')
  obtain rfl := Except.ok.inj (hparse.symm.trans hparse')
  obtain rfl := Except.ok.inj (hcontent.symm.trans hcontent')
  obtain rfl := Option.some.inj (hes.symm.trans hes')
  rfl

/-- A certification says what it should exactly where receipts that pass the checks declare what the
checks read. -/
theorem certification_sound_iff (codec : Codec) (disk : Disk) (now : Nat)
    (artifactPath buildReceiptPath longReceiptPath : String) (strictRequested : Bool)
    (expectedRunId : Option String) :
    ((evaluateCertification codec disk now artifactPath buildReceiptPath longReceiptPath
        strictRequested expectedRunId).status = "CERTIFIED" →
      ∃ ev, Reads codec disk artifactPath buildReceiptPath longReceiptPath ev ∧
        Certifies expectedRunId ev) ↔
    ∀ ev, Reads codec disk artifactPath buildReceiptPath longReceiptPath ev →
      Accepted expectedRunId ev → Declared expectedRunId ev := by
  rw [certified_iff]
  constructor
  · intro h ev hreads hacc
    obtain ⟨ev', hreads', hcert⟩ := h ⟨ev, hreads, hacc⟩
    obtain rfl := hreads.unique hreads'
    exact hcert.declared hacc
  · rintro h ⟨ev, hreads, hacc⟩
    exact ⟨ev, hreads, hacc.certifies (h ev hreads hacc)⟩

end

/-! ## Receipts with a run id and without -/

/-- The digest of an empty file. -/
def EMPTY_SHA256 : String := "e3b0c44298fc1c149afbf4c8996fb92427ae41e4649b934ca495991b7852b855"

/-- The run id, where the receipts have one. -/
def plainRunId (ran : Bool) : Option String := if ran then some "run-7" else none

/-- It as the last member of an object. -/
def runIdMember (ran : Bool) : String := if ran then ",\"run_id\":\"run-7\"" else ""

def plainBuild (ran : Bool) : BuildReceipt where
  schemaVersion := "1.0.0"
  timestampUtc := "2026-01-01T00:00:00Z"
  status := "PASSED"
  strictMode := true
  gaps := []
  package := ⟨"nam-plug", "1.0.0"⟩
  provenance := ⟨"c0ffee", "main", false, "00", "rustc 1.90.0", "", plainRunId ran⟩
  engineProvenance := ⟨"crates.io", "1.0.0", none⟩
  optimizations := ⟨true, false, "none", none, none, none, none, "match", none, none⟩
  pgoWorkload := none
  artifacts := ⟨"nam_plug.clap", EMPTY_SHA256, none, none, none, none, none, none, none⟩

def plainBuildText (ran : Bool) : String :=
  "\x7b\"schema_version\":\"1.0.0\",\"timestamp_utc\":\"2026-01-01T00:00:00Z\"," ++
  "\"status\":\"PASSED\",\"strict_mode\":true,\"gaps\":[]," ++
  "\"package\":\x7b\"name\":\"nam-plug\",\"version\":\"1.0.0\"\x7d," ++
  "\"provenance\":\x7b\"git_commit\":\"c0ffee\",\"git_branch\":\"main\",\"git_dirty\":false," ++
  "\"cargo_lock_sha256\":\"00\",\"rustc_version\":\"rustc 1.90.0\",\"rustflags\":\"\"" ++ runIdMember ran ++ "\x7d," ++
  "\"engine_provenance\":\x7b\"dependency_type\":\"crates.io\",\"version\":\"1.0.0\"\x7d," ++
  "\"optimizations\":\x7b\"pgo_applied\":true,\"bolt_applied\":false," ++
  "\"bolt_proof\":\"none\",\"codegen_comparison\":\"match\"\x7d," ++
  "\"artifacts\":\x7b\"artifact_path\":\"nam_plug.clap\",\"artifact_sha256\":\"" ++
  EMPTY_SHA256 ++ "\"\x7d\x7d"

def gapHead : List Char := "\"phase_id\":\"".toList

def gapTail (ran : Bool) : List Char :=
  "\",\"status\":\"PASSED\",".toList ++ "\"gaps\":\"latency\",\"artifact_sha256\":\"".toList ++
    EMPTY_SHA256.toList ++ ['"'] ++ (runIdMember ran).toList

/-- A line that declares its gap as a string. -/
def gapChars (ran : Bool) (pid : String) : List Char :=
  '{' :: (gapHead ++ pid.toList ++ gapTail ran ++ ['}'])

def gapEntry (ran : Bool) (pid : String) : Json :=
  .object ([("phase_id", .string pid), ("status", .string "PASSED"), ("gaps", .string "latency"),
    ("artifact_sha256", .string EMPTY_SHA256)] ++
    (plainRunId ran).toList.map fun rid => ("run_id", .string rid))

def gapText (ran : Bool) : String :=
  .ofList ((LONG_ROSTER.map (gapChars ran)).flatMap (· ++ ['\n']))

/-- On the files below the codec is the real one. -/
def plainCodec (ran : Bool) : Codec where
  sha256 b := if b.size = 0 then EMPTY_SHA256 else ""
  bufLines b :=
    match String.fromUTF8? b with
    | some s => (lines s).map .ok
    | none => [.error NOT_UTF8]
  value s :=
    match LONG_ROSTER.find? fun pid => s.toList == gapChars ran pid with
    | some pid => .ok (gapEntry ran pid)
    | none => .error "expected value at line 1 column 1"
  buildReceipt s :=
    if s = plainBuildText ran then .ok (plainBuild ran) else .error "expected value at line 1 column 1"
  quote s := "\"" ++ s ++ "\""
  bufLines_text s := by rw [fromUTF8_toUTF8]

def plainDisk (ran : Bool) : Disk := fun path =>
  if path = "nam_plug.clap" then some ⟨true, .bytes "".toUTF8⟩
  else if path = "build-receipt.json" then some ⟨true, .bytes (plainBuildText ran).toUTF8⟩
  else if path = "long-audit-receipt.jsonl" then some ⟨true, .bytes (gapText ran).toUTF8⟩
  else none

section
variable {ran : Bool}

theorem gapChars_inj {p q : String} : gapChars ran p = gapChars ran q ↔ p = q := by
  unfold gapChars
  rw [List.cons.injEq, List.append_left_inj, List.append_left_inj, List.append_right_inj,
    String.toList_inj]
  exact and_iff_right rfl

theorem gapChars_plain : ∀ l ∈ LONG_ROSTER.map (gapChars ran),
    '\n' ∉ l ∧ stripCr l.reverse = l.reverse := by
  intro l hl
  obtain ⟨pid, hpid, rfl⟩ := List.mem_map.1 hl
  have hpids : ∀ pid ∈ LONG_ROSTER, '\n' ∉ pid.toList := by decide +kernel
  have hhead : '\n' ∉ gapHead := by decide +kernel
  have htail : '\n' ∉ gapTail ran := by cases ran <;> decide +kernel
  unfold gapChars
  refine ⟨?_, ?_⟩
  · simp only [List.mem_cons, List.mem_append, not_or]
    exact ⟨by decide, ⟨⟨hhead, hpids pid hpid⟩, htail⟩, by decide, List.not_mem_nil⟩
  · rw [List.reverse_cons, List.reverse_append, List.reverse_singleton, List.singleton_append,
      List.cons_append]
    exact stripCr_of_ne (by decide) _

theorem plainCodec_value : ∀ pid ∈ LONG_ROSTER,
    (plainCodec ran).value (.ofList (gapChars ran pid)) = .ok (gapEntry ran pid) := by
  intro pid hpid
  have hfind : LONG_ROSTER.find?
      (fun q => (String.ofList (gapChars ran pid)).toList == gapChars ran q) =
      some pid := by
    have heq : (fun q => (String.ofList (gapChars ran pid)).toList == gapChars ran q) =
        fun q => pid == q := by
      funext q
      rw [String.toList_ofList, Bool.eq_iff_iff, beq_iff_eq, beq_iff_eq, gapChars_inj]
    rw [heq]
    clear heq
    revert pid
    decide +kernel
  unfold plainCodec
  dsimp only
  rw [hfind]

theorem entriesOf_gapChars {pids : List String} (h : ∀ pid ∈ pids, pid ∈ LONG_ROSTER) :
    entriesOf (plainCodec ran) ((pids.map (gapChars ran)).map .ofList) =
      some (pids.map (gapEntry ran)) := by
  induction pids with
  | nil => rfl
  | cons pid pids ih =>
    obtain ⟨hpid, hrest⟩ := List.forall_mem_cons.1 h
    have htrim : trim (.ofList (gapChars ran pid)) = .ofList (gapChars ran pid) :=
      trim_ofList (gapHead ++ pid.toList ++ gapTail ran) (by decide) (by decide)
    have hne : (String.ofList (gapChars ran pid)).isEmpty = false := by
      rw [Bool.eq_false_iff, ne_eq, String.isEmpty_iff, ← String.toList_inj, String.toList_ofList]
      exact List.cons_ne_nil _ _
    rw [List.map_cons, List.map_cons, entriesOf, htrim, hne, plainCodec_value pid hpid, ih hrest]
    rfl

end

/-- What the files say. -/
def plainEvidence (ran : Bool) : Evidence :=
  ⟨EMPTY_SHA256, plainBuild ran, LONG_ROSTER.map (gapEntry ran)⟩

section
variable (ran : Bool)

theorem plainDisk_files :
    plainDisk ran "nam_plug.clap" = some ⟨true, .bytes "".toUTF8⟩ ∧
      plainDisk ran "build-receipt.json" = some ⟨true, .bytes (plainBuildText ran).toUTF8⟩ ∧
      plainDisk ran "long-audit-receipt.jsonl" = some ⟨true, .bytes (gapText ran).toUTF8⟩ := by
  simp [plainDisk]

theorem plainEvidence_reads : Reads (plainCodec ran) (plainDisk ran) "nam_plug.clap"
    "build-receipt.json" "long-audit-receipt.jsonl" (plainEvidence ran) := by
  obtain ⟨hartifact, hbuild, hlong⟩ := plainDisk_files ran
  constructor
  · unfold hashFile Disk.read
    rw [hartifact]
    rfl
  · refine ⟨plainBuildText ran, readToString_eq_ok.2 ?_, ?_⟩
    · unfold Disk.read
      rw [hbuild]
    · unfold plainCodec
      dsimp only
      rw [if_pos rfl]
      rfl
  · rw [hlong]
    rfl
  · refine ⟨gapText ran, readToString_eq_ok.2 ?_, ?_⟩
    · unfold Disk.read
      rw [hlong]
    · unfold gapText
      rw [lines_unlines gapChars_plain]
      exact entriesOf_gapChars fun _ h => h

theorem plainRunId_some {rid : String} (h : plainRunId ran = some rid) : rid = "run-7" := by
  cases ran with
  | false => cases h
  | true => exact (Option.some.inj h).symm

theorem plainRunId_given {exp rid : String} (hexp : givenRunId (some "run-7") = some exp)
    (h : plainRunId ran = some rid) : rid = exp :=
  (plainRunId_some ran h).trans (Option.some.inj hexp)

/-- The lines have the run id of the build receipt, or none. -/
theorem gapEntry_runId (pid : String) :
    (gapEntry ran pid).textField "run_id" = plainRunId ran := by
  cases ran <;> rfl

theorem plainEvidence_accepted : Accepted (some "run-7") (plainEvidence ran) where
  build := ⟨rfl, rfl, rfl, rfl, fun _ _ => plainRunId_given ran⟩
  entries := by
    have hmem : ∀ {P : Json → Prop}, (∀ pid, P (gapEntry ran pid)) →
        ∀ e ∈ LONG_ROSTER.map (gapEntry ran), P e := by
      intro P hP e he
      obtain ⟨pid, -, rfl⟩ := List.mem_map.1 he
      exact hP pid
    have hpath : ∀ pid, (gapEntry ran pid).textField ARTIFACT_PATH_KEY = none :=
      fun _ => by cases ran <;> rfl
    refine ⟨⟨by simp [plainEvidence, LONG_ROSTER], hmem fun pid => ?_, hmem fun pid e' _ p p' hp =>
      nomatch (hpath pid).symm.trans hp⟩, hmem fun pid => ?_, ?_⟩
    · exact Json.textField_of_get rfl (by decide : EMPTY_SHA256 ≠ "")
    · exact ⟨rfl, rfl, fun _ _ hexp h => plainRunId_given ran hexp (gapEntry_runId ran pid ▸ h)⟩
    · intro req hreq
      exact (mem_phasesOf (roster_nonempty req hreq)).2
        ⟨gapEntry ran req, List.mem_map_of_mem hreq, rfl⟩
  cross rid last hrid hlast _ := by
    rcases lastRunId_mem none hlast with hnone | ⟨e, he, hlast⟩
    · cases hnone
    · obtain ⟨pid, -, rfl⟩ := List.mem_map.1 he
      rw [gapEntry_runId] at hlast
      exact (plainRunId_some ran hrid).trans (plainRunId_some ran hlast).symm

end

/-- A certification misses run ids that are not there, and gaps that are not in an array. -/
theorem certification_unsound :
    ¬ ∀ (codec : Codec) (disk : Disk) (now : Nat)
      (artifactPath buildReceiptPath longReceiptPath : String) (strictRequested : Bool)
      (expectedRunId : Option String),
      (evaluateCertification codec disk now artifactPath buildReceiptPath longReceiptPath
          strictRequested expectedRunId).status = "CERTIFIED" →
        ∃ ev, Reads codec disk artifactPath buildReceiptPath longReceiptPath ev ∧
          Certifies expectedRunId ev := by
  intro h
  obtain ⟨ev, hreads, hcert⟩ := h (plainCodec false) (plainDisk false) 0 _ _ _ true (some "run-7")
    ((certified_iff 0 _ _ _ true (some "run-7")).2
      ⟨plainEvidence false, plainEvidence_reads false, plainEvidence_accepted false⟩)
  obtain rfl := hreads.unique (plainEvidence_reads false)
  obtain ⟨rid, -, hrid, -⟩ := hcert.runId
  cases hrid

end NamPlug.Receipt
