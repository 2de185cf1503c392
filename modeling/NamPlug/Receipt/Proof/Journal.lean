import NamPlug.Receipt.LongWriter
import NamPlug.Receipt.Proof.Release

/-!
# The journal of a campaign

The long-audit receipt as a journal: `append` adds the line of a phase at its end, `summary` keeps the
lines of the phases and puts one overall line after them (`journal_kept`). `verify-artifact` and
`artifact-status` accept it where every line declares the hash of the artifact
(`cmdVerifyArtifact_journal`, `cmdArtifactStatus_journal`).
-/

namespace NamPlug.Receipt

open Text

/-! ## What is relied on -/

/-- A rendered object is one line between braces, and reads back. -/
structure Renders (codec : Codec) (engine : AuditEngine) : Prop where
  readsBack : ∀ ps : Fields, (Json.object ps).Plain →
    codec.value (engine.render (.object ps)) = .ok (.object ps)
  line : ∀ ps : Fields, (Json.object ps).Plain → '\n' ∉ (engine.render (.object ps)).toList
  braces : ∀ ps : Fields, ∃ body, (engine.render (.object ps)).toList = '\x7b' :: (body ++ ['\x7d'])

/-- The members of a receipt of the engine that the checks read; those of this program are not among
them. -/
structure Serializes (engine : AuditEngine) : Prop where
  plain : ∀ r, (Json.object (engine.toValue r)).Plain
  phaseId : ∀ r, (engine.toValue r).lookup "phase_id" = some (.string r.phaseId)
  status : ∀ r, (engine.toValue r).lookup "status" = some (.string r.status.asStr)
  gaps : ∀ r, phaseGaps (.object (engine.toValue r)) = r.gaps.filter fun s => !s.isEmpty
  artifact : ∀ r,
    ((engine.toValue r).lookup ARTIFACT_SHA256_KEY).bind Json.asString = r.artifactSha256
  path : ∀ r, (engine.toValue r).lookup ARTIFACT_PATH_KEY = none
  runId : ∀ r, (engine.toValue r).lookup "run_id" = none
  overall : ∀ audit, (engine.summaryReceipt audit).phaseId = "overall"

section
variable {codec : Codec} {engine : AuditEngine}

/-! ## The journal -/

def journalText (engine : AuditEngine) (j : List Fields) : String :=
  .ofList (j.flatMap fun ps => (engine.render (.object ps)).toList ++ ['\n'])

/-- The file is the lines of `j`; of none, where it does not exist. -/
structure Journal (engine : AuditEngine) (disk : Disk) (out : String) (j : List Fields) : Prop where
  plain : ∀ ps ∈ j, (Json.object ps).Plain
  file : disk out = some ⟨true, .bytes (journalText engine j).toUTF8⟩ ∨ (j = [] ∧ disk out = none)

/-- The lines of the phases. -/
def phaseLines (j : List Fields) : List Fields := j.filter fun ps => !isOverall (.object ps)

theorem Renders.trim (hr : Renders codec engine) (ps : Fields) :
    trim (engine.render (.object ps)) = engine.render (.object ps) := by
  obtain ⟨body, hbody⟩ := hr.braces ps
  have htext : engine.render (.object ps) = .ofList ('\x7b' :: (body ++ ['\x7d'])) := by
    rw [← hbody, String.ofList_toList]
  rw [htext]
  exact trim_ofList body (by decide) (by decide)

theorem Renders.nonempty (hr : Renders codec engine) (ps : Fields) :
    (engine.render (.object ps)).isEmpty = false := by
  obtain ⟨body, hbody⟩ := hr.braces ps
  rw [Bool.eq_false_iff, ne_eq, String.isEmpty_iff, ← String.toList_inj, hbody]
  exact List.cons_ne_nil _ _

theorem lines_journal (hr : Renders codec engine) {j : List Fields}
    (h : ∀ ps ∈ j, (Json.object ps).Plain) :
    lines (journalText engine j) = j.map fun ps => engine.render (.object ps) := by
  unfold journalText
  have hplain : ∀ l ∈ j.map fun ps => (engine.render (.object ps)).toList,
      '\n' ∉ l ∧ stripCr l.reverse = l.reverse := by
    intro l hl
    obtain ⟨ps, hps, rfl⟩ := List.mem_map.1 hl
    refine ⟨hr.line ps (h ps hps), ?_⟩
    obtain ⟨body, hbody⟩ := hr.braces ps
    rw [hbody, List.reverse_cons, List.reverse_append, List.reverse_singleton,
      List.singleton_append, List.cons_append]
    exact stripCr_of_ne (by decide) _
  have hlines := lines_unlines hplain
  rw [List.flatMap_map] at hlines
  rw [hlines, List.map_map]
  exact List.map_congr_left fun ps _ => String.ofList_toList

theorem entriesOf_journal (hr : Renders codec engine) {j : List Fields}
    (h : ∀ ps ∈ j, (Json.object ps).Plain) :
    entriesOf codec (j.map fun ps => engine.render (.object ps)) = some (j.map .object) := by
  induction j with
  | nil => rfl
  | cons ps j ih =>
    obtain ⟨hps, hj⟩ := List.forall_mem_cons.1 h
    rw [List.map_cons, entriesOf, hr.trim, hr.nonempty, hr.readsBack ps hps, ih hj]
    rfl

theorem keptLines_journal (hr : Renders codec engine) {j : List Fields}
    (h : ∀ ps ∈ j, (Json.object ps).Plain) :
    keptLines codec (j.map fun ps => engine.render (.object ps)) =
      .ok ((phaseLines j).map fun ps => (engine.render (.object ps), .object ps)) := by
  induction j with
  | nil => rfl
  | cons ps j ih =>
    obtain ⟨hps, hj⟩ := List.forall_mem_cons.1 h
    rw [List.map_cons, keptLines, hr.trim, hr.nonempty, hr.readsBack ps hps]
    dsimp only
    rw [if_neg Bool.false_ne_true, ih hj]
    unfold phaseLines
    by_cases hover : isOverall (.object ps) = true
    · rw [if_pos hover, List.filter_cons_of_neg (by simp [hover])]
    · rw [if_neg hover, List.filter_cons_of_pos (by simpa using hover)]
      rfl

theorem Journal.read {disk : Disk} {out : String} {j : List Fields}
    (h : Journal engine disk out j) (hread : ∃ content, readToString disk out = .ok content) :
    disk out = some ⟨true, .bytes (journalText engine j).toUTF8⟩ := by
  rcases h.file with hfile | ⟨-, hnone⟩
  · exact hfile
  · obtain ⟨content, hread⟩ := hread
    obtain ⟨node, hnode⟩ := exists_of_readToString hread
    rw [hnone] at hnode
    cases hnode

theorem readToString_journal {disk : Disk} {out : String} {j : List Fields}
    (h : disk out = some ⟨true, .bytes (journalText engine j).toUTF8⟩) :
    readToString disk out = .ok (journalText engine j) := by
  refine readToString_eq_ok.2 ?_
  unfold Disk.read
  rw [h]

theorem intercalate_lines (lines : List String) (last : String) :
    String.intercalate "\n" (lines ++ [last]) ++ "\n" =
      .ofList ((lines ++ [last]).flatMap fun l => l.toList ++ ['\n']) := by
  induction lines with
  | nil => simp
  | cons l lines ih =>
    rw [List.cons_append, String.intercalate_cons_of_ne_nil (by simp), String.append_assoc, ih]
    simp [← String.toList_inj]

/-! ## Writes -/

/-- A write that does not stop within the text. -/
def WriteEnd.Unbroken (w : WriteEnd) : Prop := ∀ e n, w ≠ .failed e n

theorem Journal.congr {disk disk' : Disk} {out : String} {j : List Fields}
    (h : Journal engine disk out j) (heq : disk' out = disk out) : Journal engine disk' out j :=
  ⟨h.plain, by rw [heq]; exact h.file⟩

theorem appendLine_other {disk : Disk} {out out' line : String} {w : WriteEnd} (h : out' ≠ out) :
    appendLine disk out' line w out = disk out := by
  unfold appendLine
  rcases w.bytes (line ++ "\n") with _ | b
  · rfl
  · exact Function.update_of_ne h.symm _ _

theorem writeFile_other {disk : Disk} {out out' content : String} {w : WriteEnd} (h : out' ≠ out) :
    writeFile disk out' content w out = disk out := by
  unfold writeFile
  rcases w.bytes content with _ | b
  · rfl
  · exact Function.update_of_ne h.symm _ _

theorem journalText_append (j : List Fields) (ps : Fields) :
    (journalText engine (j ++ [ps])).toUTF8 = (journalText engine j).toUTF8 ++
      (engine.render (.object ps) ++ "\n").toUTF8 := by
  have htext : journalText engine (j ++ [ps]) =
      journalText engine j ++ (engine.render (.object ps) ++ "\n") := by
    simp [journalText]
  rw [htext]
  exact String.toByteArray_append

/-- A line is added at the end. -/
theorem appendLine_journal {disk : Disk} {out : String} {j : List Fields} {ps : Fields}
    (h : Journal engine disk out j) (hps : (Json.object ps).Plain) :
    Journal engine (appendLine disk out (engine.render (.object ps)) .complete) out (j ++ [ps]) := by
  constructor
  · intro qs hqs
    rcases List.mem_append.1 hqs with hqs | hqs
    · exact h.plain qs hqs
    · obtain rfl := List.mem_singleton.1 hqs
      exact hps
  · left
    rw [journalText_append]
    unfold appendLine WriteEnd.bytes
    dsimp only
    rw [Function.update_self]
    rcases h.file with hfile | ⟨rfl, hnone⟩
    · rw [hfile]
      rfl
    · have hempty : (journalText engine []).toUTF8 = ByteArray.empty := rfl
      rw [hnone, hempty, ByteArray.empty_append]
      rfl

/-! ## `append` -/

theorem stamp_plain {key : String} {s : Option String} {ps : Fields} (h : (Json.object ps).Plain) :
    (Json.object (stamp key s ps)).Plain := by
  cases s with
  | none => exact h
  | some s => exact Json.plain_insert h trivial

theorem plugFields_plain (hs : Serializes engine) (r : AppendRequest) :
    (Json.object (plugFields engine r)).Plain := by
  unfold plugFields
  dsimp only
  refine stamp_plain ?_
  rcases r.artifactPath with _ | path
  · exact hs.plain _
  · exact Json.plain_insert (Json.plain_insert (hs.plain _) trivial) trivial

/-- An `append` writes to its own file only. -/
theorem cmdAppend_other {disk : Disk} {path : String} {env : Env} {args : List String}
    (h : ∀ r, appendRequest engine env disk args = .ok r → r.out ≠ path) :
    (cmdAppend engine env args disk).2 path = disk path := by
  unfold cmdAppend
  rcases happend : appendRequest engine env disk args with e | r
  · rfl
  dsimp only
  rcases env.writeEnd.error with _ | e
  · exact appendLine_other (h r happend)
  · exact appendLine_other (h r happend)

/-- What an `append` leaves of a journal. -/
theorem cmdAppend_journal (hs : Serializes engine) {disk : Disk} {out : String} {j : List Fields}
    {env : Env} {args : List String} (hw : env.writeEnd.Unbroken) (h : Journal engine disk out j) :
    Journal engine (cmdAppend engine env args disk).2 out (j ++
      ((Invocation.mk env (.append args)).request engine disk out).toList.map
        (plugFields engine)) := by
  unfold cmdAppend Invocation.request
  dsimp only
  rcases happend : appendRequest engine env disk args with e | r
  · simpa [Except.toOption] using h
  have hplain := plugFields_plain hs r
  rcases hend : env.writeEnd with _ | e | ⟨e, n⟩
  · by_cases hout : r.out = out
    · subst hout
      simpa [Except.toOption, Option.filter, WriteEnd.error] using appendLine_journal h hplain
    · have hsame : appendLine disk r.out (engine.render (.object (plugFields engine r))) .complete out =
          disk out := appendLine_other hout
      have hother := h.congr hsame
      simpa [Except.toOption, Option.filter, WriteEnd.error, hout] using hother
  · simpa [Except.toOption, Option.filter, WriteEnd.error, appendLine, WriteEnd.bytes] using h
  · exact absurd hend (hw e n)

/-! ## `summary` -/

theorem bind_eq_ok {ε α β : Type} {x : Except ε α} {f : α → Except ε β} {b : β} :
    x >>= f = .ok b ↔ ∃ a, x = .ok a ∧ f a = .ok b := by
  rcases x with e | a <;> simp [bind, Except.bind]

theorem bind_eq_error {ε α β : Type} {x : Except ε α} {f : α → Except ε β} {e : ε} :
    x >>= f = .error e ↔ x = .error e ∨ ∃ a, x = .ok a ∧ f a = .error e := by
  rcases x with e | a <;> simp [bind, Except.bind]

theorem mapError_eq_ok {ε ε' α : Type} {x : Except ε α} {f : ε → ε'} {a : α} :
    x.mapError f = .ok a ↔ x = .ok a := by
  rcases x with e | a <;> simp [Except.mapError]

theorem mapError_eq_error {ε ε' α : Type} {x : Except ε α} {f : ε → ε'} {e' : ε'} :
    x.mapError f = .error e' ↔ ∃ e, x = .error e ∧ f e = e' := by
  rcases x with e | a <;> simp [Except.mapError]

/-- What a `summary` that goes on has read. -/
theorem summaryRequest_ok {env : Env} {disk : Disk} {args : List String} {r : SummaryRequest}
    (h : summaryRequest engine codec env disk args = .ok r) :
    ∃ flags audit raw kept declared, parseFlags args [] = .ok flags ∧
      engine.parseJsonl (disk.read (outOf flags)) = .ok audit ∧
      readToString disk (outOf flags) = .ok raw ∧ keptLines codec (lines raw) = .ok kept ∧
      declaredBy (kept.map Prod.snd) = .ok declared ∧
      r = ⟨outOf flags, kept.map Prod.fst, engine.summaryReceipt audit,
        overallFields engine (engine.summaryReceipt audit) declared
          (summaryRunId env flags (kept.map Prod.snd))⟩ := by
  unfold summaryRequest at h
  obtain ⟨flags, hflags, h⟩ := bind_eq_ok.1 h
  obtain ⟨audit, haudit, h⟩ := bind_eq_ok.1 h
  obtain ⟨-, -, h⟩ := bind_eq_ok.1 h
  obtain ⟨raw, hraw, h⟩ := bind_eq_ok.1 h
  obtain ⟨kept, hkept, h⟩ := bind_eq_ok.1 h
  obtain ⟨declared, hdeclared, h⟩ := bind_eq_ok.1 h
  exact ⟨flags, audit, raw, kept, declared, mapError_eq_ok.1 hflags, mapError_eq_ok.1 haudit,
    mapError_eq_ok.1 hraw, mapError_eq_ok.1 hkept, mapError_eq_ok.1 hdeclared,
    (Except.ok.inj h).symm⟩

/-- A `summary` that does not go on says so. -/
theorem summaryRequest_error {env : Env} {disk : Disk} {args : List String} {exit : Exit}
    (h : summaryRequest engine codec env disk args = .error exit) : exit.code ≠ 0 := by
  have hfailure : ∀ {α : Type} {x : Except String α} {message : String → String},
      (x.mapError fun e => dieFailure (message e)) = .error exit → exit.code ≠ 0 := by
    intro α x message h
    obtain ⟨e, -, rfl⟩ := mapError_eq_error.1 h
    exact Nat.one_ne_zero
  unfold summaryRequest at h
  rcases bind_eq_error.1 h with h | ⟨flags, -, h⟩
  · obtain ⟨e, -, rfl⟩ := mapError_eq_error.1 h
    exact Nat.succ_ne_zero 1
  rcases bind_eq_error.1 h with h | ⟨audit, -, h⟩
  · exact hfailure h
  rcases bind_eq_error.1 h with h | ⟨-, -, h⟩
  · unfold ensure at h
    split at h
    · cases h
    · obtain rfl := Except.error.inj h
      exact Nat.one_ne_zero
  rcases bind_eq_error.1 h with h | ⟨raw, -, h⟩
  · exact hfailure h
  rcases bind_eq_error.1 h with h | ⟨kept, -, h⟩
  · exact hfailure h
  rcases bind_eq_error.1 h with h | ⟨declared, -, h⟩
  · obtain ⟨e, -, rfl⟩ := mapError_eq_error.1 h
    exact Nat.one_ne_zero
  · cases h

/-! ## Members -/

theorem lookup_stamp {key k : String} {s : Option String} {ps : Fields} :
    (stamp key s ps).lookup k =
      if k = key then (s.map Json.string).or (ps.lookup k) else ps.lookup k := by
  cases s with
  | none => simp [stamp]
  | some s =>
    unfold stamp
    rw [Json.lookup_insert]
    rfl

/-- The members that a request adds to those of its receipt are its own. -/
theorem lookup_plugFields {r : AppendRequest} {k : String} (hpath : k ≠ ARTIFACT_PATH_KEY)
    (hexercised : k ≠ ARTIFACT_EXERCISED_KEY) (hrun : k ≠ "run_id") :
    (plugFields engine r).lookup k = (engine.toValue r.receipt).lookup k := by
  unfold plugFields
  dsimp only
  rw [lookup_stamp, if_neg hrun]
  rcases r.artifactPath with _ | path
  · rfl
  · dsimp only
    rw [Json.lookup_insert, if_neg hexercised, Json.lookup_insert, if_neg hpath]

/-- The members that `summary` adds to those of its receipt are its own. -/
theorem lookup_overallFields {r : LongPhaseReceipt} {declared : Option DeclaredArtifact}
    {runId : Option String} {k : String} (hpath : k ≠ ARTIFACT_PATH_KEY)
    (hsha : k ≠ ARTIFACT_SHA256_KEY) (hrun : k ≠ "run_id") :
    (overallFields engine r declared runId).lookup k = (engine.toValue r).lookup k := by
  unfold overallFields
  dsimp only
  rw [lookup_stamp, if_neg hrun]
  rcases declared with _ | declared
  · rfl
  · dsimp only
    rw [lookup_stamp, if_neg hpath, Json.lookup_insert, if_neg hsha]

theorem overallFields_plain (hs : Serializes engine) (r : LongPhaseReceipt)
    (declared : Option DeclaredArtifact) (runId : Option String) :
    (Json.object (overallFields engine r declared runId)).Plain := by
  unfold overallFields
  dsimp only
  refine stamp_plain ?_
  rcases declared with _ | declared
  · exact hs.plain r
  · exact stamp_plain (Json.plain_insert (hs.plain r) trivial)

theorem isOverall_overallFields (hs : Serializes engine) (audit : List LongPhaseReceipt)
    (declared : Option DeclaredArtifact) (runId : Option String) :
    isOverall (.object (overallFields engine (engine.summaryReceipt audit) declared runId)) =
      true := by
  unfold isOverall Json.get
  dsimp only
  rw [lookup_overallFields (by decide) (by decide) (by decide), hs.phaseId, hs.overall]
  rfl

theorem isOverall_plugFields (hs : Serializes engine) (r : AppendRequest) :
    isOverall (.object (plugFields engine r)) = (r.receipt.phaseId == "overall") := by
  unfold isOverall Json.get
  dsimp only
  rw [lookup_plugFields (by decide) (by decide) (by decide), hs.phaseId]
  rfl

/-! ## `summary` of a journal -/

/-- The file that a `summary` is about. -/
def summaryOut (args : List String) : Option String := (parseFlags args []).toOption.map outOf

theorem phaseLines_append (j j' : List Fields) :
    phaseLines (j ++ j') = phaseLines j ++ phaseLines j' := List.filter_append ..

theorem phaseLines_overall {j : List Fields} {o : Fields} (ho : isOverall (.object o) = true) :
    phaseLines (phaseLines j ++ [o]) = phaseLines j := by
  rw [phaseLines_append]
  unfold phaseLines
  rw [List.filter_filter, List.filter_cons_of_neg (by simp [ho]), List.filter_nil, List.append_nil]
  simp

theorem writeFile_journal {disk : Disk} {out : String} {j : List Fields} {o : Fields}
    (h : ∀ ps ∈ j ++ [o], (Json.object ps).Plain) :
    Journal engine (writeFile disk out (String.intercalate "\n"
      ((j.map fun ps => engine.render (.object ps)) ++ [engine.render (.object o)]) ++ "\n")
      .complete) out (j ++ [o]) := by
  refine ⟨h, .inl ?_⟩
  unfold writeFile WriteEnd.bytes
  dsimp only
  rw [Function.update_self, intercalate_lines]
  have htext : (j.map fun ps => engine.render (.object ps)) ++ [engine.render (.object o)] =
      (j ++ [o]).map fun ps => engine.render (.object ps) := by simp
  rw [htext, List.flatMap_map]
  rfl

/-- What a `summary` of this file that goes on has read of its journal. -/
theorem summaryRequest_journal (hr : Renders codec engine) {disk : Disk} {out : String}
    {j : List Fields} {env : Env} {args : List String} {r : SummaryRequest}
    (h : Journal engine disk out j) (hrequest : summaryRequest engine codec env disk args = .ok r)
    (hout : r.out = out) :
    ∃ flags audit declared, parseFlags args [] = .ok flags ∧
      engine.parseJsonl (disk.read out) = .ok audit ∧
      declaredBy ((phaseLines j).map .object) = .ok declared ∧
      r = ⟨out, (phaseLines j).map fun ps => engine.render (.object ps),
        engine.summaryReceipt audit, overallFields engine (engine.summaryReceipt audit) declared
          (summaryRunId env flags ((phaseLines j).map .object))⟩ := by
  obtain ⟨flags, audit, raw, kept, declared, hflags, haudit, hraw, hkept, hdeclared, rfl⟩ :=
    summaryRequest_ok hrequest
  dsimp only at hout
  subst hout
  obtain rfl := Except.ok.inj ((readToString_journal (h.read ⟨raw, hraw⟩)).symm.trans hraw)
  rw [lines_journal hr h.plain, keptLines_journal hr h.plain] at hkept
  obtain rfl := Except.ok.inj hkept
  rw [List.map_map] at hdeclared
  refine ⟨flags, audit, declared, hflags, haudit, hdeclared, ?_⟩
  rw [List.map_map, List.map_map]
  rfl

/-- A `summary` succeeds on a journal with phases that the engine reads and that do not declare
several artifacts. -/
theorem cmdSummary_succeeds (hr : Renders codec engine) {disk : Disk} {out : String}
    {j : List Fields} {env : Env} {args : List String} {audit : List LongPhaseReceipt}
    {declared : Option DeclaredArtifact} (h : Journal engine disk out j) (hne : j ≠ [])
    (hout : summaryOut args = some out) (haudit : engine.parseJsonl (disk.read out) = .ok audit)
    (hphases : audit ≠ []) (hdeclared : declaredBy ((phaseLines j).map .object) = .ok declared)
    (hend : env.writeEnd = .complete) : (cmdSummary engine codec env args disk).1.code = 0 := by
  obtain ⟨flags, hflags, rfl⟩ : ∃ flags, parseFlags args [] = .ok flags ∧ outOf flags = out := by
    unfold summaryOut at hout
    rcases hflags : parseFlags args [] with e | flags
    · rw [hflags] at hout
      cases hout
    · rw [hflags] at hout
      exact ⟨flags, rfl, Option.some.inj hout⟩
  have hfile := h.file.resolve_right fun hnil => absurd hnil.1 hne
  have hkept := keptLines_journal hr h.plain
  have hentries : ((phaseLines j).map fun ps => (engine.render (.object ps), Json.object ps)).map
      Prod.snd = (phaseLines j).map .object := by
    rw [List.map_map]
    rfl
  have hrequest : ∃ r, summaryRequest engine codec env disk args = .ok r := by
    unfold summaryRequest
    simp only [hflags, haudit, readToString_journal hfile, lines_journal hr h.plain, hkept, hentries,
      hdeclared, Except.mapError, bind, Except.bind, ensure]
    rw [if_pos (by simpa using hphases)]
    exact ⟨_, rfl⟩
  obtain ⟨r, hrequest⟩ := hrequest
  unfold cmdSummary
  rw [hrequest, hend]
  rfl

/-- A `summary` writes to its own file only. -/
theorem cmdSummary_other {disk : Disk} {path : String} {env : Env} {args : List String}
    (h : summaryOut args ≠ some path) : (cmdSummary engine codec env args disk).2 path = disk path := by
  unfold cmdSummary
  rcases hrequest : summaryRequest engine codec env disk args with exit | r
  · rfl
  have hout : r.out ≠ path := by
    obtain ⟨flags, _, _, _, _, hflags, -, -, -, -, rfl⟩ := summaryRequest_ok hrequest
    rintro rfl
    unfold summaryOut at h
    rw [hflags] at h
    exact h rfl
  dsimp only
  rcases env.writeEnd.error with _ | e
  · exact writeFile_other hout
  · exact writeFile_other hout

/-- A `summary` leaves the journal, or its phases and an overall line. -/
theorem cmdSummary_journal (hr : Renders codec engine) (hs : Serializes engine) {disk : Disk}
    {out : String} {j : List Fields} {env : Env} {args : List String}
    (hw : env.writeEnd.Unbroken) (h : Journal engine disk out j) :
    ∃ j', Journal engine (cmdSummary engine codec env args disk).2 out j' ∧
      phaseLines j' = phaseLines j := by
  unfold cmdSummary
  rcases hrequest : summaryRequest engine codec env disk args with exit | r
  · exact ⟨j, h, rfl⟩
  dsimp only
  rcases hend : env.writeEnd with _ | e | ⟨e, n⟩
  · by_cases hout : r.out = out
    · obtain ⟨flags, audit, declared, -, -, -, rfl⟩ := summaryRequest_journal hr h hrequest hout
      refine ⟨_, writeFile_journal ?_, phaseLines_overall (isOverall_overallFields hs audit declared _)⟩
      intro ps hps
      rcases List.mem_append.1 hps with hps | hps
      · exact h.plain ps (List.mem_of_mem_filter hps)
      · obtain rfl := List.mem_singleton.1 hps
        exact overallFields_plain hs _ _ _
    · refine ⟨j, h.congr ?_, rfl⟩
      simp only [WriteEnd.error]
      exact writeFile_other hout
  · exact ⟨j, h, rfl⟩
  · exact absurd hend (hw e n)

/-- A `summary` that succeeds leaves the lines of the phases and one overall line, at the end. -/
theorem cmdSummary_done (hr : Renders codec engine) (hs : Serializes engine) {disk : Disk}
    {out : String} {j : List Fields} {env : Env} {args : List String}
    (h : Journal engine disk out j) (hout : summaryOut args = some out)
    (hcode : (cmdSummary engine codec env args disk).1.code = 0) :
    ∃ flags audit declared, parseFlags args [] = .ok flags ∧
      engine.parseJsonl (disk.read out) = .ok audit ∧
      declaredBy ((phaseLines j).map .object) = .ok declared ∧
      Journal engine (cmdSummary engine codec env args disk).2 out (phaseLines j ++
        [overallFields engine (engine.summaryReceipt audit) declared
          (summaryRunId env flags ((phaseLines j).map .object))]) := by
  unfold cmdSummary at hcode ⊢
  rcases hrequest : summaryRequest engine codec env disk args with exit | r
  · rw [hrequest] at hcode
    exact absurd hcode (summaryRequest_error hrequest)
  rw [hrequest] at hcode
  dsimp only at hcode ⊢
  have hrout : r.out = out := by
    obtain ⟨flags, _, _, _, _, hflags, -, -, -, -, rfl⟩ := summaryRequest_ok hrequest
    unfold summaryOut at hout
    rw [hflags] at hout
    exact Option.some.inj hout
  obtain ⟨flags, audit, declared, hflags, haudit, hdeclared, rfl⟩ :=
    summaryRequest_journal hr h hrequest hrout
  refine ⟨flags, audit, declared, hflags, haudit, hdeclared, ?_⟩
  rcases hend : env.writeEnd with _ | e | ⟨e, n⟩ <;> rw [hend] at hcode
  · refine writeFile_journal ?_
    intro ps hps
    rcases List.mem_append.1 hps with hps | hps
    · exact h.plain ps (List.mem_of_mem_filter hps)
    · obtain rfl := List.mem_singleton.1 hps
      exact overallFields_plain hs _ _ _
  · cases hcode
  · cases hcode

/-! ## The declared artifact -/

theorem exit_code_eq_zero {subcommand : String} {verdict : ArtifactConsistency} :
    (verdict.exit subcommand).code = 0 ↔ ∃ d, verdict = .matched d := by
  cases verdict <;> simp [ArtifactConsistency.exit]

theorem verifyReceiptDeclaredSha_matched {disk : Disk} {receiptPath expected d : String} :
    verifyReceiptDeclaredSha codec disk receiptPath expected = .matched d ↔
      ((disk receiptPath).map FileNode.isFile).getD false = true ∧
        ∃ es, readReceiptEntries codec disk receiptPath = .ok es ∧ DeclaresArtifact d es ∧
          d = expected := by
  constructor
  · intro h
    unfold verifyReceiptDeclaredSha at h
    split_ifs at h with hfile
    refine ⟨by simpa using hfile, ?_⟩
    rcases hes : readReceiptEntries codec disk receiptPath with e | es
    · simp [hes] at h
    rcases hdeclared : declaredArtifact es with kind | declared
    · cases kind <;> simp [hes, hdeclared] at h
    simp only [hes, hdeclared] at h
    split_ifs at h with heq
    obtain rfl := ArtifactConsistency.matched.inj h
    exact ⟨es, rfl, declaredArtifact_ok hdeclared, heq⟩
  · rintro ⟨hfile, es, hes, hdeclares, rfl⟩
    obtain ⟨path, hdeclared⟩ := declaredArtifact_of hdeclares
    unfold verifyReceiptDeclaredSha
    rw [if_neg (by simp [hfile])]
    simp only [hes, hdeclared, if_true]

theorem cmdVerifyArtifact_eq {disk : Disk} {out artifact : String} {args : List String}
    {flags : Flags} (hflags : parseFlags args [] = .ok flags)
    (hout : required flags "out" = .ok out) (hartifact : required flags "artifact" = .ok artifact) :
    cmdVerifyArtifact codec args disk =
      (verifyReceiptArtifact codec disk out artifact).exit "verify-artifact" := by
  unfold cmdVerifyArtifact
  simp only [hflags, hout, hartifact, bind, Except.bind]
  rfl

theorem cmdArtifactStatus_eq {disk : Disk} {out expected : String} {args : List String}
    {flags : Flags} (hflags : parseFlags args [] = .ok flags)
    (hout : required flags "out" = .ok out)
    (hexpected : required flags "expected-sha256" = .ok expected) :
    cmdArtifactStatus codec args disk =
      (verifyReceiptDeclaredSha codec disk out expected).exit "artifact-status" := by
  unfold cmdArtifactStatus
  simp only [hflags, hout, hexpected, bind, Except.bind]
  rfl

/-- The hash that a build recorded stands for the file: with that of the file itself the two commands
end alike, on any receipt. -/
theorem cmdArtifactStatus_agrees {disk : Disk} {out artifact actual : String}
    {args args' : List String} {flags flags' : Flags}
    (hflags : parseFlags args [] = .ok flags) (hout : required flags "out" = .ok out)
    (hartifact : required flags "artifact" = .ok artifact)
    (hflags' : parseFlags args' [] = .ok flags') (hout' : required flags' "out" = .ok out)
    (hexpected : required flags' "expected-sha256" = .ok actual)
    (hsha : hashFile codec disk artifact = .ok actual) :
    (cmdArtifactStatus codec args' disk).code = (cmdVerifyArtifact codec args disk).code := by
  rw [cmdVerifyArtifact_eq hflags hout hartifact, cmdArtifactStatus_eq hflags' hout' hexpected]
  unfold verifyReceiptDeclaredSha verifyReceiptArtifact
  split_ifs
  · rfl
  rcases readReceiptEntries codec disk out with e | es
  · rfl
  dsimp only
  rcases declaredArtifact es with kind | declared
  · cases kind <;> rfl
  · simp only [sha256File_eq_ok.2 hsha]
    split_ifs <;> rfl

/-- The entries read of a journal are its lines. -/
theorem Journal.entries (hr : Renders codec engine) {disk : Disk} {out : String} {j : List Fields}
    (h : Journal engine disk out j) {es : List Json} :
    ((disk out).map FileNode.isFile).getD false = true ∧
      readReceiptEntries codec disk out = .ok es ↔ j ≠ [] ∧ es = j.map .object := by
  rcases h.file with hfile | ⟨rfl, hnone⟩
  · have hread := readToString_journal hfile
    rw [readReceiptEntries_eq_ok hread, lines_journal hr h.plain, entriesOf_journal hr h.plain, hfile]
    constructor
    · rintro ⟨-, hes, hne⟩
      obtain rfl := Option.some.inj hes
      exact ⟨by simpa using hne, rfl⟩
    · rintro ⟨hne, rfl⟩
      exact ⟨rfl, rfl, by simpa using hne⟩
  · simp [hnone]

/-- `verify-artifact` accepts a journal where every line declares the hash of the file. -/
theorem cmdVerifyArtifact_journal (hr : Renders codec engine) {disk : Disk} {out artifact : String}
    {j : List Fields} (h : Journal engine disk out j) {args : List String} {flags : Flags}
    (hflags : parseFlags args [] = .ok flags) (hout : required flags "out" = .ok out)
    (hartifact : required flags "artifact" = .ok artifact) :
    (cmdVerifyArtifact codec args disk).code = 0 ↔
      ∃ sha, DeclaresArtifact sha (j.map .object) ∧ hashFile codec disk artifact = .ok sha := by
  rw [cmdVerifyArtifact_eq hflags hout hartifact, exit_code_eq_zero]
  simp only [verifyReceiptArtifact_matched]
  constructor
  · rintro ⟨sha, hfile, es, hes, hdeclares, hsha⟩
    obtain ⟨-, rfl⟩ := (h.entries hr).1 ⟨hfile, hes⟩
    exact ⟨sha, hdeclares, hsha⟩
  · rintro ⟨sha, hdeclares, hsha⟩
    obtain ⟨hfile, hes⟩ := (h.entries hr).2 ⟨by simpa using hdeclares.nonempty, rfl⟩
    exact ⟨sha, hfile, _, hes, hdeclares, hsha⟩

/-- `artifact-status` accepts a journal where every line declares the expected hash. -/
theorem cmdArtifactStatus_journal (hr : Renders codec engine) {disk : Disk} {out expected : String}
    {j : List Fields} (h : Journal engine disk out j) {args : List String} {flags : Flags}
    (hflags : parseFlags args [] = .ok flags) (hout : required flags "out" = .ok out)
    (hexpected : required flags "expected-sha256" = .ok expected) :
    (cmdArtifactStatus codec args disk).code = 0 ↔
      DeclaresArtifact expected (j.map .object) := by
  rw [cmdArtifactStatus_eq hflags hout hexpected, exit_code_eq_zero]
  simp only [verifyReceiptDeclaredSha_matched]
  constructor
  · rintro ⟨_, hfile, es, hes, hdeclares, rfl⟩
    obtain ⟨-, rfl⟩ := (h.entries hr).1 ⟨hfile, hes⟩
    exact hdeclares
  · intro hdeclares
    obtain ⟨hfile, hes⟩ := (h.entries hr).2 ⟨by simpa using hdeclares.nonempty, rfl⟩
    exact ⟨expected, hfile, _, hes, hdeclares, rfl⟩

/-! ## Runs -/

/-- The journal after a run: the phases that were there, and then what the run recorded. -/
theorem runAll_journal (hr : Renders codec engine) (hs : Serializes engine) {out : String} :
    ∀ {is : List Invocation} {disk : Disk} {j : List Fields},
      (∀ i ∈ is, i.env.writeEnd.Unbroken) → Journal engine disk out j →
        ∃ j', Journal engine (runAll engine codec is disk) out j' ∧
          phaseLines j' = phaseLines (j ++ (recorded engine codec out is disk).map
            (plugFields engine)) := by
  intro is
  induction is with
  | nil =>
    intro disk j _ h
    exact ⟨j, h, by simp [recorded]⟩
  | cons i is ih =>
    intro disk j hw h
    obtain ⟨hi, hrest⟩ := List.forall_mem_cons.1 hw
    obtain ⟨env, command⟩ := i
    rcases command with args | args
    · obtain ⟨j', hj', hphases⟩ := ih hrest (cmdAppend_journal hs hi h)
      refine ⟨j', hj', ?_⟩
      rw [hphases, recorded, List.map_append, List.append_assoc]
      rfl
    · obtain ⟨j₁, hj₁, hphases₁⟩ := cmdSummary_journal hr hs hi h
      obtain ⟨j', hj', hphases⟩ := ih hrest hj₁
      refine ⟨j', hj', ?_⟩
      rw [hphases, phaseLines_append, hphases₁, ← phaseLines_append]
      rfl

/-- No line of a phase is lost, changed or moved: after a run of commands whose writes do not stop
within a text, the lines of the phases are those that were there, and then one for each successful
`append`, in order. A `summary` that succeeds leaves these and one overall line, at the end. -/
theorem journal_kept (hr : Renders codec engine) (hs : Serializes engine) {is : List Invocation}
    {disk : Disk} {out : String} {j : List Fields} (hw : ∀ i ∈ is, i.env.writeEnd.Unbroken)
    (h : Journal engine disk out j) :
    (∃ j', Journal engine (runAll engine codec is disk) out j' ∧ phaseLines j' =
        phaseLines j ++ phaseLines ((recorded engine codec out is disk).map (plugFields engine))) ∧
      ∀ env args, summaryOut args = some out →
        (cmdSummary engine codec env args (runAll engine codec is disk)).1.code = 0 →
          ∃ overall, isOverall (.object overall) = true ∧
            Journal engine (cmdSummary engine codec env args (runAll engine codec is disk)).2 out
              (phaseLines j ++
                phaseLines ((recorded engine codec out is disk).map (plugFields engine)) ++
                [overall]) := by
  obtain ⟨j', hj', hphases⟩ := runAll_journal hr hs hw h
  rw [phaseLines_append] at hphases
  refine ⟨⟨j', hj', hphases⟩, fun env args hout hcode => ?_⟩
  obtain ⟨flags, audit, declared, -, -, -, hdone⟩ := cmdSummary_done hr hs hj' hout hcode
  rw [hphases] at hdone
  exact ⟨_, isOverall_overallFields hs audit declared _, hdone⟩

end

end NamPlug.Receipt
