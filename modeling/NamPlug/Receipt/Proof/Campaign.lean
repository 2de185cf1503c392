import NamPlug.Receipt.Proof.Journal

/-!
# Certification of a campaign

What the certifier reads of the lines that `append` and `summary` write: a campaign is certified
exactly where what its commands recorded says so (`campaign_certified_iff`).
-/

namespace NamPlug.Receipt

open Text

section
variable {codec : Codec} {engine : AuditEngine}

/-! ## What the certifier reads of a line -/

/-- A string that is not empty. -/
def given (s : Option String) : Option String := s.filter fun s => !s.isEmpty

theorem given_eq_some {s : Option String} {t : String} : given s = some t ↔ s = some t ∧ t ≠ "" := by
  unfold given
  rw [Option.filter_eq_some_iff]
  simp

theorem bind_map_string (s : Option String) : (s.map Json.string).bind Json.asString = s := by
  cases s <;> rfl

theorem textField_object {ps : Fields} {k : String} {s : Option String}
    (h : ps.lookup k = s.map Json.string) : (Json.object ps).textField k = given s := by
  unfold Json.textField Json.get given
  dsimp only
  rw [h, bind_map_string]

theorem lookup_plugFields_runId (hs : Serializes engine) (r : AppendRequest) :
    (plugFields engine r).lookup "run_id" = r.runId.map Json.string := by
  have hrun : (engine.toValue r.receipt).lookup "run_id" = none := hs.runId r.receipt
  unfold plugFields
  dsimp only
  rw [lookup_stamp, if_pos rfl]
  rcases r.artifactPath with _ | path
  · dsimp only
    rw [hrun, Option.or_none]
  · dsimp only
    rw [Json.lookup_insert, if_neg (by decide), Json.lookup_insert, if_neg (by decide), hrun,
      Option.or_none]

theorem lookup_plugFields_path (hs : Serializes engine) (r : AppendRequest) :
    (plugFields engine r).lookup ARTIFACT_PATH_KEY = r.artifactPath.map Json.string := by
  unfold plugFields
  dsimp only
  rw [lookup_stamp, if_neg (by decide)]
  rcases r.artifactPath with _ | path
  · exact hs.path r.receipt
  · dsimp only
    rw [Json.lookup_insert, if_neg (by decide), Json.lookup_insert, if_pos rfl]
    rfl

theorem textField_plugFields_sha (hs : Serializes engine) (r : AppendRequest) :
    (Json.object (plugFields engine r)).textField ARTIFACT_SHA256_KEY =
      given r.receipt.artifactSha256 := by
  unfold Json.textField Json.get given
  dsimp only
  rw [lookup_plugFields (by decide) (by decide) (by decide), hs.artifact]

theorem lookup_overallFields_runId (hs : Serializes engine) {r : LongPhaseReceipt}
    {declared : Option DeclaredArtifact} {runId : Option String} :
    (overallFields engine r declared runId).lookup "run_id" = runId.map Json.string := by
  have hrun : (engine.toValue r).lookup "run_id" = none := hs.runId r
  unfold overallFields
  dsimp only
  rw [lookup_stamp, if_pos rfl]
  rcases declared with _ | declared
  · dsimp only
    rw [hrun, Option.or_none]
  · dsimp only
    rw [lookup_stamp, if_neg (by decide), Json.lookup_insert, if_neg (by decide), hrun,
      Option.or_none]

theorem lookup_overallFields_sha {r : LongPhaseReceipt} {declared : DeclaredArtifact}
    {runId : Option String} :
    (overallFields engine r (some declared) runId).lookup ARTIFACT_SHA256_KEY =
      some (.string declared.sha256) := by
  unfold overallFields
  dsimp only
  rw [lookup_stamp, if_neg (by decide), lookup_stamp, if_neg (by decide), Json.lookup_insert,
    if_pos rfl]

theorem lookup_overallFields_path (hs : Serializes engine) {r : LongPhaseReceipt}
    {declared : DeclaredArtifact} {runId : Option String} :
    (overallFields engine r (some declared) runId).lookup ARTIFACT_PATH_KEY =
      declared.path.map Json.string := by
  unfold overallFields
  dsimp only
  rw [lookup_stamp, if_neg (by decide), lookup_stamp, if_pos rfl, Json.lookup_insert,
    if_neg (by decide), hs.path, Option.or_none]

/-- No gap that has a name. -/
def GapFree (gaps : List String) : Prop := ∀ g ∈ gaps, g = ""

theorem asStr_passed {status : LongPhaseStatus} : status.asStr = "PASSED" ↔ status = .passed := by
  cases status <;> simp [LongPhaseStatus.asStr]

/-- A line with the status and the gaps of a receipt is accepted where the receipt passed without
gaps. -/
theorem lineAccepted_iff (hs : Serializes engine) {expectedRunId runId : Option String} {ps : Fields}
    {r : LongPhaseReceipt} (hstatus : ps.lookup "status" = (engine.toValue r).lookup "status")
    (hgaps : ps.lookup "gaps" = (engine.toValue r).lookup "gaps")
    (hrun : ps.lookup "run_id" = runId.map Json.string) :
    LineAccepted expectedRunId (.object ps) ↔ r.status = .passed ∧ GapFree r.gaps ∧
      ∀ exp rid, givenRunId expectedRunId = some exp → given runId = some rid → rid = exp := by
  have htext : (Json.object ps).text "status" = r.status.asStr := by
    unfold Json.text Json.get
    dsimp only
    rw [hstatus, hs.status]
    rfl
  have hphase : phaseGaps (.object ps) = r.gaps.filter fun s => !s.isEmpty := by
    have hget : (Json.object ps).get "gaps" = (Json.object (engine.toValue r)).get "gaps" := hgaps
    rw [← hs.gaps]
    unfold phaseGaps
    rw [hget]
  have hfree : phaseGaps (.object ps) = [] ↔ GapFree r.gaps := by
    rw [hphase, List.filter_eq_nil_iff]
    simp [GapFree]
  constructor
  · rintro ⟨hpassed, hclean, hid⟩
    rw [textField_object hrun] at hid
    exact ⟨asStr_passed.1 (htext ▸ hpassed), hfree.1 hclean, hid⟩
  · rintro ⟨hpassed, hclean, hid⟩
    refine ⟨htext.trans (asStr_passed.2 hpassed), hfree.2 hclean, ?_⟩
    rw [textField_object hrun]
    exact hid

/-! ## What a campaign recorded -/

/-- The run ids of a campaign that are not empty. -/
def runIds (phases : List AppendRequest) (overallRunId : Option String) : List String :=
  (phases.map (·.runId) ++ [overallRunId]).filterMap given

/-- What the certifier asks of what a campaign recorded: each phase, and all of them passed without
gaps, of the one artifact and the one run. -/
structure CampaignAccepted (expectedRunId : Option String) (sha : String)
    (buildRunId : Option String) (phases : List AppendRequest) (overall : LongPhaseReceipt)
    (overallRunId : Option String) : Prop where
  roster : ∀ pid ∈ PLUG_LONG_ROSTER, pid ≠ "overall" → ∃ r ∈ phases, r.receipt.phaseId = pid
  artifact : sha ≠ "" ∧ ∀ r ∈ phases, r.receipt.artifactSha256 = some sha
  path : ∀ r ∈ phases, ∀ r' ∈ phases, ∀ p p', given r.artifactPath = some p →
    given r'.artifactPath = some p' → p = p'
  passed : overall.status = .passed ∧ ∀ r ∈ phases, r.receipt.status = .passed
  gapFree : GapFree overall.gaps ∧ ∀ r ∈ phases, GapFree r.receipt.gaps
  expected : ∀ exp, givenRunId expectedRunId = some exp → ∀ rid ∈ runIds phases overallRunId,
    rid = exp
  cross : ∀ rid last, buildRunId = some rid → (runIds phases overallRunId).getLast? = some last →
    rid ≠ "" → rid = last

theorem lastRunId_eq (es : List Json) (init : Option String) :
    lastRunId es init = ((es.filterMap (·.textField "run_id")).getLast?).or init := by
  induction es generalizing init with
  | nil => rfl
  | cons e es ih =>
    have hstep : lastRunId (e :: es) init = lastRunId es ((e.textField "run_id").or init) := rfl
    rw [hstep, ih, List.filterMap_cons]
    rcases e.textField "run_id" with _ | rid
    · rfl
    · rw [List.getLast?_cons]
      have hlast : ∀ o : Option String, o.or ((some rid).or init) = (some (o.getD rid)).or init := by
        intro o
        cases o <;> rfl
      exact hlast _

/-- The path of a declared artifact is that of a line. -/
theorem declaredArtifact_path {entries : List Json} {d : DeclaredArtifact} {p : String}
    (h : declaredArtifact entries = .ok d) (hp : d.path = some p) :
    ∃ e ∈ entries, e.textField ARTIFACT_PATH_KEY = some p := by
  unfold declaredArtifact at h
  dsimp only at h
  split_ifs at h
  rcases hshas : sortedSet (declaredShas entries) with _ | ⟨s, l⟩
  · rw [hshas] at h
    cases h
  rw [hshas] at h
  obtain rfl := Except.ok.inj h
  have hmem : p ∈ sortedSet (entries.filterMap (·.textField ARTIFACT_PATH_KEY)) :=
    List.mem_of_head? hp
  exact List.mem_filterMap.1 (mem_sortedSet.1 hmem)

/-- The entries of a campaign: its phases, and the overall line. -/
def campaignEntries (engine : AuditEngine) (phases : List AppendRequest) (overall : Fields) :
    List Json := (phases.map (plugFields engine) ++ [overall]).map .object

theorem mem_campaignEntries {phases : List AppendRequest} {overall : Fields} {e : Json} :
    e ∈ campaignEntries engine phases overall ↔
      (∃ r ∈ phases, e = .object (plugFields engine r)) ∨ e = .object overall := by
  unfold campaignEntries
  simp [eq_comm]

theorem runIds_entries (hs : Serializes engine) {phases : List AppendRequest}
    {overall : LongPhaseReceipt} {declared : Option DeclaredArtifact} {runId : Option String} :
    (campaignEntries engine phases (overallFields engine overall declared runId)).filterMap
      (·.textField "run_id") = runIds phases runId := by
  unfold campaignEntries runIds
  rw [List.map_append, List.filterMap_append, List.filterMap_append, List.map_map,
    List.filterMap_map, List.filterMap_map]
  have hphases : phases.filterMap ((fun e => e.textField "run_id") ∘ Json.object ∘
      plugFields engine) = (phases.map (·.runId)).filterMap given := by
    rw [List.filterMap_map]
    exact List.filterMap_congr fun r _ => textField_object (lookup_plugFields_runId hs r)
  rw [hphases, List.filterMap_cons, List.filterMap_cons, Function.comp_apply,
    textField_object (lookup_overallFields_runId hs)]
  rfl

theorem phaseId_plugFields (hs : Serializes engine) (r : AppendRequest) :
    (Json.object (plugFields engine r)).get "phase_id" = some (.string r.receipt.phaseId) := by
  unfold Json.get
  dsimp only
  rw [lookup_plugFields (by decide) (by decide) (by decide), hs.phaseId]

/-- The phases declare the artifact where each was recorded with its hash. -/
theorem declares_iff (hs : Serializes engine) {phases : List AppendRequest} {sha : String}
    (hne : phases ≠ []) :
    DeclaresArtifact sha ((phases.map (plugFields engine)).map .object) ↔
      (sha ≠ "" ∧ ∀ r ∈ phases, r.receipt.artifactSha256 = some sha) ∧
        ∀ r ∈ phases, ∀ r' ∈ phases, ∀ p p', given r.artifactPath = some p →
          given r'.artifactPath = some p' → p = p' := by
  have hpath : ∀ r : AppendRequest, (Json.object (plugFields engine r)).textField ARTIFACT_PATH_KEY =
      given r.artifactPath := fun r => textField_object (lookup_plugFields_path hs r)
  constructor
  · rintro ⟨-, hsha, honePath⟩
    rw [List.map_map, List.forall_mem_map] at hsha
    simp only [List.map_map, List.forall_mem_map, Function.comp_apply, hpath] at honePath
    have hrecord : ∀ r ∈ phases, r.receipt.artifactSha256 = some sha ∧ sha ≠ "" := by
      intro r hr
      have hr := hsha r hr
      rw [Function.comp_apply, textField_plugFields_sha hs, given_eq_some] at hr
      exact hr
    obtain ⟨r₀, hr₀⟩ := List.exists_mem_of_ne_nil _ hne
    exact ⟨⟨(hrecord r₀ hr₀).2, fun r hr => (hrecord r hr).1⟩, honePath⟩
  · rintro ⟨⟨hempty, hsha⟩, honePath⟩
    refine ⟨by simpa using hne, ?_, ?_⟩
    · rw [List.map_map, List.forall_mem_map]
      intro r hr
      rw [Function.comp_apply, textField_plugFields_sha hs, given_eq_some]
      exact ⟨hsha r hr, hempty⟩
    · simpa only [List.map_map, List.forall_mem_map, Function.comp_apply, hpath] using honePath

theorem declaredBy_of {entries : List Json} {declared : Option DeclaredArtifact} {sha : String}
    (h : declaredBy entries = .ok declared) (hsha : DeclaresArtifact sha entries) :
    ∃ d, declaredArtifact entries = .ok d ∧ declared = some d ∧ d.sha256 = sha := by
  obtain ⟨path, hpath⟩ := declaredArtifact_of hsha
  unfold declaredBy at h
  rw [hpath] at h
  exact ⟨⟨path, sha⟩, hpath, (Except.ok.inj h).symm, rfl⟩

/-- With the phases the overall line declares the artifact. -/
theorem declares_campaign (hs : Serializes engine) {phases : List AppendRequest} {sha : String}
    {overall : LongPhaseReceipt} {declared : Option DeclaredArtifact} {runId : Option String}
    (hdeclared : declaredBy ((phases.map (plugFields engine)).map .object) = .ok declared)
    (h : DeclaresArtifact sha ((phases.map (plugFields engine)).map .object)) :
    DeclaresArtifact sha
      (campaignEntries engine phases (overallFields engine overall declared runId)) := by
  obtain ⟨d, hd, rfl, rfl⟩ := declaredBy_of hdeclared h
  obtain ⟨hne, hsha, honePath⟩ := h
  obtain ⟨e₀, he₀⟩ := List.exists_mem_of_ne_nil _ hne
  have hentries : campaignEntries engine phases (overallFields engine overall (some d) runId) =
      (phases.map (plugFields engine)).map .object ++
        [.object (overallFields engine overall (some d) runId)] := List.map_append
  have hoverall : ∀ p, (Json.object (overallFields engine overall (some d) runId)).textField
      ARTIFACT_PATH_KEY = some p →
        ∃ e ∈ (phases.map (plugFields engine)).map Json.object,
          e.textField ARTIFACT_PATH_KEY = some p := by
    intro p hp
    rw [textField_object (lookup_overallFields_path hs), given_eq_some] at hp
    exact declaredArtifact_path hd hp.1
  -- the path of each line is that of a phase
  have hphase : ∀ e ∈ campaignEntries engine phases (overallFields engine overall (some d) runId),
      ∀ p, e.textField ARTIFACT_PATH_KEY = some p →
        ∃ e ∈ (phases.map (plugFields engine)).map Json.object,
          e.textField ARTIFACT_PATH_KEY = some p := by
    intro e he p hp
    rw [hentries, List.mem_append, List.mem_singleton] at he
    rcases he with he | rfl
    · exact ⟨e, he, hp⟩
    · exact hoverall p hp
  constructor
  · rw [hentries]
    simp
  · intro e he
    rw [hentries, List.mem_append, List.mem_singleton] at he
    rcases he with he | rfl
    · exact hsha e he
    · rw [textField_object (s := some d.sha256) lookup_overallFields_sha, given_eq_some]
      exact ⟨rfl, Json.textField_nonempty (hsha e₀ he₀)⟩
  · intro e he e' he' p p' hp hp'
    obtain ⟨e₁, he₁, hp₁⟩ := hphase e he p hp
    obtain ⟨e₂, he₂, hp₂⟩ := hphase e' he' p' hp'
    exact honePath e₁ he₁ e₂ he₂ p p' hp₁ hp₂

/-- The certifier accepts the lines of a campaign exactly where it accepts what was recorded. -/
theorem accepted_iff (hs : Serializes engine) {expectedRunId : Option String} {sha : String}
    {br : BuildReceipt} {phases : List AppendRequest} {overall : LongPhaseReceipt}
    {declared : Option DeclaredArtifact} {runId : Option String}
    (hoverall : overall.phaseId = "overall")
    (hdeclared : declaredBy ((phases.map (plugFields engine)).map .object) = .ok declared) :
    Accepted expectedRunId ⟨sha, br, campaignEntries engine phases
        (overallFields engine overall declared runId)⟩ ↔
      BuildAccepted expectedRunId sha br ∧
        CampaignAccepted expectedRunId sha br.provenance.runId phases overall runId := by
  have hoverallId : (Json.object (overallFields engine overall declared runId)).get "phase_id" =
      some (.string "overall") := by
    unfold Json.get
    dsimp only
    rw [lookup_overallFields (by decide) (by decide) (by decide), hs.phaseId, hoverall]
  have hline : ∀ r : AppendRequest, LineAccepted expectedRunId (.object (plugFields engine r)) ↔
      r.receipt.status = .passed ∧ GapFree r.receipt.gaps ∧
        ∀ exp rid, givenRunId expectedRunId = some exp → given r.runId = some rid → rid = exp :=
    fun r => lineAccepted_iff hs (lookup_plugFields (by decide) (by decide) (by decide))
      (lookup_plugFields (by decide) (by decide) (by decide)) (lookup_plugFields_runId hs r)
  have hlast : LineAccepted expectedRunId (.object (overallFields engine overall declared runId)) ↔
      overall.status = .passed ∧ GapFree overall.gaps ∧
        ∀ exp rid, givenRunId expectedRunId = some exp → given runId = some rid → rid = exp :=
    lineAccepted_iff hs (lookup_overallFields (by decide) (by decide) (by decide))
      (lookup_overallFields (by decide) (by decide) (by decide)) (lookup_overallFields_runId hs)
  have hids : (campaignEntries engine phases (overallFields engine overall declared runId)).filterMap
      (·.textField "run_id") = runIds phases runId := runIds_entries hs
  constructor
  · rintro ⟨hbuild, ⟨hartifact, hlines, hroster⟩, hcross⟩
    dsimp only at *
    have hphases : ∀ pid ∈ PLUG_LONG_ROSTER, pid ≠ "overall" →
        ∃ r ∈ phases, r.receipt.phaseId = pid := by
      intro pid hpid hne
      obtain ⟨e, he, hid⟩ := (mem_phasesOf (roster_nonempty pid hpid)).1 (hroster pid hpid)
      rcases mem_campaignEntries.1 he with ⟨r, hr, rfl⟩ | rfl
      · rw [phaseId_plugFields hs] at hid
        exact ⟨r, hr, Json.string.inj (Option.some.inj hid)⟩
      · rw [hoverallId] at hid
        exact absurd (Json.string.inj (Option.some.inj hid)).symm hne
    have hne : phases ≠ [] := by
      obtain ⟨r, hr, -⟩ := hphases "phase1" (by decide) (by decide)
      exact List.ne_nil_of_mem hr
    have hsub : ∀ e ∈ (phases.map (plugFields engine)).map Json.object,
        e ∈ campaignEntries engine phases (overallFields engine overall declared runId) := by
      intro e he
      unfold campaignEntries
      rw [List.map_append]
      exact List.mem_append_left _ he
    have hdeclares := (declares_iff hs hne).1 ⟨by simpa using hne,
      fun e he => hartifact.sha e (hsub e he),
      fun e he e' he' => hartifact.path e (hsub e he) e' (hsub e' he')⟩
    have hphase : ∀ r ∈ phases, _ := fun r hr =>
      (hline r).1 (hlines _ (mem_campaignEntries.2 (.inl ⟨r, hr, rfl⟩)))
    have hover := hlast.1 (hlines _ (mem_campaignEntries.2 (.inr rfl)))
    refine ⟨hbuild, hphases, hdeclares.1, hdeclares.2, ⟨hover.1, fun r hr => (hphase r hr).1⟩,
      ⟨hover.2.1, fun r hr => (hphase r hr).2.1⟩, ?_, ?_⟩
    · intro exp hexp rid hrid
      rw [← hids] at hrid
      obtain ⟨e, he, hrid⟩ := List.mem_filterMap.1 hrid
      exact (hlines e he).runId exp rid hexp hrid
    · rwa [lastRunId_eq, Option.or_none, hids] at hcross
  · rintro ⟨hbuild, hroster, hartifact, hpath, hpassed, hgaps, hexpected, hcross⟩
    have hne : phases ≠ [] := by
      obtain ⟨r, hr, -⟩ := hroster "phase1" (by decide) (by decide)
      exact List.ne_nil_of_mem hr
    refine ⟨hbuild, ⟨declares_campaign hs hdeclared ((declares_iff hs hne).2 ⟨hartifact, hpath⟩),
      ?_, ?_⟩, ?_⟩
    · intro e he
      rcases mem_campaignEntries.1 he with ⟨r, hr, rfl⟩ | rfl
      · refine (hline r).2 ⟨hpassed.2 r hr, hgaps.2 r hr, fun exp rid hexp hrid => ?_⟩
        exact hexpected exp hexp rid (List.mem_filterMap.2 ⟨r.runId,
          List.mem_append_left _ (List.mem_map_of_mem hr), hrid⟩)
      · refine hlast.2 ⟨hpassed.1, hgaps.1, fun exp rid hexp hrid => ?_⟩
        exact hexpected exp hexp rid (List.mem_filterMap.2 ⟨runId,
          List.mem_append_right _ (List.mem_singleton_self _), hrid⟩)
    · intro req hreq
      refine (mem_phasesOf (roster_nonempty req hreq)).2 ?_
      by_cases hover : req = "overall"
      · exact ⟨_, mem_campaignEntries.2 (.inr rfl), by rw [hoverallId, hover]⟩
      · obtain ⟨r, hr, hid⟩ := hroster req hreq hover
        exact ⟨_, mem_campaignEntries.2 (.inl ⟨r, hr, rfl⟩), by rw [phaseId_plugFields hs, hid]⟩
    · dsimp only
      rwa [lastRunId_eq, Option.or_none, hids]

/-! ## The verdict -/

/-- What a campaign recorded of its phases. -/
def phasesRecorded (engine : AuditEngine) (codec : Codec) (out : String) (is : List Invocation)
    (disk : Disk) : List AppendRequest :=
  (recorded engine codec out is disk).filter fun r => r.receipt.phaseId != "overall"

theorem phaseLines_recorded (hs : Serializes engine) (rs : List AppendRequest) :
    phaseLines (rs.map (plugFields engine)) =
      (rs.filter fun r => r.receipt.phaseId != "overall").map (plugFields engine) := by
  unfold phaseLines
  rw [List.filter_map]
  congr 1
  refine List.filter_congr fun r _ => ?_
  rw [Function.comp_apply, isOverall_plugFields hs]
  rfl

theorem summaryRunId_phases (hs : Serializes engine) (env : Env) (flags : Flags)
    (phases : List AppendRequest) :
    summaryRunId env flags ((phases.map (plugFields engine)).map .object) =
      ((flags.lookup "run-id").or env.namRunId).or (phases.findSome? (·.runId)) := by
  unfold summaryRunId firstRunId
  rw [List.map_map, List.findSome?_map]
  congr 2
  funext r
  unfold Function.comp Json.get
  dsimp only
  rw [lookup_plugFields_runId hs, bind_map_string]

theorem reads_journal (hr : Renders codec engine) {disk : Disk} {out artifactPath buildReceiptPath :
    String} {j : List Fields} (h : Journal engine disk out j) (hne : j ≠ []) {ev : Evidence} :
    Reads codec disk artifactPath buildReceiptPath out ev ↔
      hashFile codec disk artifactPath = .ok ev.sha ∧
        (∃ content, readToString disk buildReceiptPath = .ok content ∧
          codec.buildReceipt content = .ok ev.build) ∧ ev.entries = j.map .object := by
  have hfile : disk out = some ⟨true, .bytes (journalText engine j).toUTF8⟩ := by
    rcases h.file with hfile | ⟨hnil, -⟩
    · exact hfile
    · exact absurd hnil hne
  have hread := readToString_journal hfile
  have hentries : entriesOf codec (lines (journalText engine j)) = some (j.map .object) := by
    rw [lines_journal hr h.plain, entriesOf_journal hr h.plain]
  constructor
  · rintro ⟨hsha, hbuild, -, content, hcontent, hes⟩
    obtain rfl := Except.ok.inj (hread.symm.trans hcontent)
    exact ⟨hsha, hbuild, (Option.some.inj (hentries.symm.trans hes)).symm⟩
  · rintro ⟨hsha, hbuild, hes⟩
    exact ⟨hsha, hbuild, by rw [hfile]; rfl, _, hread, hes ▸ hentries⟩

/-- A campaign is certified exactly where what was recorded says so. Of a receipt that commands wrote
from nothing and that a `summary` closed, the certifier reads the artifact's hash, the build receipt
and what the `append` commands were given: it certifies where each phase was recorded, and all of
them passed without gaps, of that artifact and in the one run. -/
theorem campaign_certified_iff (hr : Renders codec engine) (hs : Serializes engine)
    {is : List Invocation} {disk disk' : Disk} {out : String} {env : Env} {args : List String}
    {exit : Exit} (hw : ∀ i ∈ is, i.env.writeEnd.Unbroken) (hfresh : disk out = none)
    (hout : summaryOut args = some out)
    (hsummary : cmdSummary engine codec env args (runAll engine codec is disk) = (exit, disk'))
    (hcode : exit.code = 0) (now : Nat) (artifactPath buildReceiptPath : String)
    (strictRequested : Bool) (expectedRunId : Option String) :
    ∃ flags audit, parseFlags args [] = .ok flags ∧
      engine.parseJsonl ((runAll engine codec is disk).read out) = .ok audit ∧
      ((evaluateCertification codec disk' now artifactPath buildReceiptPath out strictRequested
          expectedRunId).status = "CERTIFIED" ↔
        ∃ sha br content, hashFile codec disk' artifactPath = .ok sha ∧
          readToString disk' buildReceiptPath = .ok content ∧ codec.buildReceipt content = .ok br ∧
          BuildAccepted expectedRunId sha br ∧
          CampaignAccepted expectedRunId sha br.provenance.runId
            (phasesRecorded engine codec out is disk) (engine.summaryReceipt audit)
            (((flags.lookup "run-id").or env.namRunId).or
              ((phasesRecorded engine codec out is disk).findSome? (·.runId)))) := by
  obtain ⟨j, hj, hphases⟩ := runAll_journal hr hs hw
    (⟨fun ps hps => absurd hps List.not_mem_nil, .inr ⟨rfl, hfresh⟩⟩ : Journal engine disk out [])
  have hcode' : (cmdSummary engine codec env args (runAll engine codec is disk)).1.code = 0 := by
    rw [hsummary]
    exact hcode
  obtain ⟨flags, audit, declared, hflags, haudit, hdeclared, hdone⟩ :=
    cmdSummary_done hr hs hj hout hcode'
  rw [hphases, List.nil_append, phaseLines_recorded hs] at hdeclared hdone
  rw [summaryRunId_phases hs, hsummary] at hdone
  have hreads : ∀ ev, Reads codec disk' artifactPath buildReceiptPath out ev ↔ _ :=
    fun ev => reads_journal hr hdone (by simp)
  refine ⟨flags, audit, hflags, haudit, ?_⟩
  rw [certified_iff]
  constructor
  · rintro ⟨⟨sha, br, es⟩, hread, hacc⟩
    obtain ⟨hsha, ⟨content, hcontent, hbuild⟩, hes⟩ := (hreads _).1 hread
    dsimp only at hes
    subst hes
    obtain ⟨hbr, hcampaign⟩ := (accepted_iff hs (hs.overall audit) hdeclared).1 hacc
    exact ⟨sha, br, content, hsha, hcontent, hbuild, hbr, hcampaign⟩
  · rintro ⟨sha, br, content, hsha, hcontent, hbuild, hbr, hcampaign⟩
    exact ⟨⟨sha, br, _⟩, (hreads _).2 ⟨hsha, ⟨content, hcontent, hbuild⟩, rfl⟩,
      (accepted_iff hs (hs.overall audit) hdeclared).2 ⟨hbr, hcampaign⟩⟩

end

/-! ## A campaign -/

/-- The members of a receipt. -/
def receiptMembers (r : LongPhaseReceipt) : Fields :=
  (match r.artifactSha256 with
  | none => []
  | some sha => [(ARTIFACT_SHA256_KEY, .string sha)]) ++
    [("duration_ms", .posInt r.durationMs.toNat), ("gaps", .array (r.gaps.map .string)),
      ("name", .string r.name), ("phase_id", .string r.phaseId), ("status", .string r.status.asStr),
      ("tests_executed", .posInt r.testsExecuted.toNat), ("timestamp", .string r.timestamp)]

def statusOf (s : String) : Option LongPhaseStatus :=
  [.passed, .failed, .skipped, .inconclusive, .skipCapability, .notRun, .simulated].find?
    fun (status : LongPhaseStatus) => status.asStr == s

/-- The receipt of a line. -/
def receiptOf (v : Json) : Option LongPhaseReceipt := do
  let status ← statusOf (v.text "status")
  return {
    phaseId := v.text "phase_id"
    name := v.text "name"
    status
    durationMs := .ofNat (((v.get "duration_ms").bind Json.asU64).getD 0)
    testsExecuted := .ofNat (((v.get "tests_executed").bind Json.asU64).getD 0)
    gaps := phaseGaps v
    timestamp := v.text "timestamp"
    artifactSha256 := (v.get ARTIFACT_SHA256_KEY).bind Json.asString }

/-- The receipts of the lines of a text. -/
def receiptLines : Reading → Except String (List LongPhaseReceipt)
  | .bytes b =>
    match String.fromUTF8? b with
    | some s => .ok ((lines s).filterMap fun line => (Json.read line.toList).bind receiptOf)
    | none => .error NOT_UTF8
  | .openError e => .error e
  | .readError e => .error e

/-- On the campaign below the engine is the real one. -/
def plainAudit : AuditEngine where
  statusFromStr s :=
    match statusOf s with
    | some status => .ok status
    | none => .error s!"unknown status '{s}'"
  gapId status := if status = .passed then none else some status.asStr
  countTestsExecuted _ := 0
  detectGapMarkers _ := []
  toValue := receiptMembers
  parseJsonl := receiptLines
  summaryReceipt audit :=
    { phaseId := "overall"
      name := "overall"
      status := if audit.all fun r => r.status == .passed then .passed else .failed
      durationMs := audit.foldl (fun n r => n.add r.durationMs) (.ofNat 0)
      testsExecuted := audit.foldl (fun n r => n.add r.testsExecuted) (.ofNat 0)
      gaps := audit.flatMap (·.gaps)
      timestamp := "2026-01-01T00:00:00Z"
      artifactSha256 := none }
  render v := .ofList (Json.write v)

/-- The files before a campaign, with a reader of JSON. -/
def readCodec : Codec :=
  { plainCodec false with
    value := fun s =>
      match Json.read s.toList with
      | some v => .ok v
      | none => .error "expected value at line 1 column 1" }

theorem readCodec_renders : Renders readCodec plainAudit where
  readsBack ps h := by
    unfold readCodec plainAudit
    dsimp only
    rw [String.toList_ofList, Json.read_write h]
  line ps h := by
    unfold plainAudit
    dsimp only
    rw [String.toList_ofList]
    exact Json.newline_write _ h
  braces ps := by
    unfold plainAudit
    dsimp only
    rw [String.toList_ofList]
    exact Json.write_object ps

theorem allPlain_string (xs : List String) : Json.AllPlain (xs.map .string) := by
  induction xs with
  | nil => trivial
  | cons x xs ih => exact ⟨trivial, ih⟩

theorem plainAudit_serializes : Serializes plainAudit where
  plain r := by
    have htail : Json.PlainMembers
        [("duration_ms", .posInt r.durationMs.toNat), ("gaps", .array (r.gaps.map .string)),
          ("name", .string r.name), ("phase_id", .string r.phaseId),
          ("status", .string r.status.asStr), ("tests_executed", .posInt r.testsExecuted.toNat),
          ("timestamp", .string r.timestamp)] :=
      ⟨r.durationMs.toNat_lt, allPlain_string r.gaps, trivial, trivial, trivial,
        r.testsExecuted.toNat_lt, trivial, trivial⟩
    obtain ⟨_, _, _, _, _, _, _, sha⟩ := r
    rcases sha with _ | sha
    · refine ⟨?_, htail⟩
      show List.Pairwise (· < ·) ["duration_ms", "gaps", "name", "phase_id", "status",
        "tests_executed", "timestamp"]
      decide +kernel
    · refine ⟨?_, trivial, htail⟩
      show List.Pairwise (· < ·) ["artifact_sha256", "duration_ms", "gaps", "name", "phase_id",
        "status", "tests_executed", "timestamp"]
      decide +kernel
  phaseId r := by rcases r with ⟨_, _, _, _, _, _, _, _ | sha⟩ <;> rfl
  status r := by rcases r with ⟨_, _, _, _, _, _, _, _ | sha⟩ <;> rfl
  gaps r := by
    have hget : (Json.object (plainAudit.toValue r)).get "gaps" = some (.array (r.gaps.map .string)) := by
      rcases r with ⟨_, _, _, _, _, _, _, _ | sha⟩ <;> rfl
    unfold phaseGaps
    rw [hget, Option.bind_some, Json.asArray, Option.getD_some, List.filterMap_map]
    induction r.gaps with
    | nil => rfl
    | cons g gs ih =>
      rw [List.filterMap_cons, ih, List.filter_cons, Function.comp_apply, Json.asString,
        Option.filter_some]
      rcases g.isEmpty <;> rfl
  artifact r := by rcases r with ⟨_, _, _, _, _, _, _, _ | sha⟩ <;> rfl
  path r := by rcases r with ⟨_, _, _, _, _, _, _, _ | sha⟩ <;> rfl
  runId r := by rcases r with ⟨_, _, _, _, _, _, _, _ | sha⟩ <;> rfl
  overall _ := rfl

def campaignEnv : Env := ⟨some "run-7", "2026-01-01T00:00:00Z", .complete⟩

def phaseArgs (pid : String) : List String :=
  ["--phase-id", pid, "--name", pid, "--status", "PASSED", "--duration-ms", "1000",
    "--tests-executed", "3", "--artifact-path", "nam_plug.clap", "--artifact-sha256",
    EMPTY_SHA256, "--artifact-exercised", "true"]

/-- What the arguments ask for. -/
def phaseRequest (pid : String) : AppendRequest where
  out := DEFAULT_OUT
  receipt :=
    { phaseId := pid
      name := pid
      status := .passed
      durationMs := 1000
      testsExecuted := 3
      gaps := []
      timestamp := "2026-01-01T00:00:00Z"
      artifactSha256 := some EMPTY_SHA256 }
  artifactPath := some "nam_plug.clap"
  artifactExercised := true
  runId := some "run-7"

/-- The phases, one after another. -/
def campaignPhases : List String := ["phase1", "phase2", "phase3", "phase4", "phase5", "phase6"]

def campaign (pids : List String) : List Invocation :=
  pids.map fun pid => ⟨campaignEnv, .append (phaseArgs pid)⟩

theorem phaseArgs_request (disk : Disk) : ∀ pid ∈ campaignPhases,
    appendRequest plainAudit campaignEnv disk (phaseArgs pid) = .ok (phaseRequest pid) := by
  unfold campaignPhases
  simp only [List.mem_cons, List.not_mem_nil, or_false]
  rintro pid (rfl | rfl | rfl | rfl | rfl | rfl) <;> rfl

theorem receiptOf_phase : ∀ pid ∈ campaignPhases,
    receiptOf (.object (plugFields plainAudit (phaseRequest pid))) =
      some (phaseRequest pid).receipt := by
  unfold campaignPhases
  simp only [List.mem_cons, List.not_mem_nil, or_false]
  rintro pid (rfl | rfl | rfl | rfl | rfl | rfl) <;> rfl

/-- The phases are recorded one after another, and no other file changes. -/
theorem runAll_campaign : ∀ {pids : List String} {disk : Disk} {j : List Fields},
    (∀ pid ∈ pids, pid ∈ campaignPhases) → Journal plainAudit disk DEFAULT_OUT j →
      Journal plainAudit (runAll plainAudit readCodec (campaign pids) disk) DEFAULT_OUT
          (j ++ (pids.map phaseRequest).map (plugFields plainAudit)) ∧
        recorded plainAudit readCodec DEFAULT_OUT (campaign pids) disk = pids.map phaseRequest ∧
        ∀ path, path ≠ DEFAULT_OUT →
          runAll plainAudit readCodec (campaign pids) disk path = disk path := by
  intro pids
  induction pids with
  | nil =>
    intro disk j _ h
    exact ⟨by simpa [runAll, campaign] using h, rfl, fun _ _ => rfl⟩
  | cons pid pids ih =>
    intro disk j hpids h
    obtain ⟨hpid, hrest⟩ := List.forall_mem_cons.1 hpids
    have hrequest : (Invocation.mk campaignEnv (.append (phaseArgs pid))).request plainAudit disk
        DEFAULT_OUT = some (phaseRequest pid) := by
      unfold Invocation.request
      dsimp only
      rw [phaseArgs_request disk pid hpid]
      rfl
    have hunbroken : campaignEnv.writeEnd.Unbroken := fun _ _ h => nomatch h
    have hstep : Journal plainAudit (cmdAppend plainAudit campaignEnv (phaseArgs pid) disk).2
        DEFAULT_OUT _ := cmdAppend_journal plainAudit_serializes hunbroken h
    rw [hrequest] at hstep
    obtain ⟨hj, hrecorded, hother⟩ := ih hrest hstep
    refine ⟨?_, ?_, fun path hpath => (hother path hpath).trans ?_⟩
    · rw [List.map_cons, List.map_cons, List.append_cons]
      exact hj
    · unfold campaign
      rw [List.map_cons, recorded, hrequest]
      exact congrArg _ hrecorded
    · refine cmdAppend_other fun r hr => ?_
      obtain rfl := Except.ok.inj ((phaseArgs_request disk pid hpid).symm.trans hr)
      exact hpath.symm

theorem receiptLines_journal {j : List Fields} (h : ∀ ps ∈ j, (Json.object ps).Plain) :
    receiptLines (.bytes (journalText plainAudit j).toUTF8) =
      .ok (j.filterMap fun ps => receiptOf (.object ps)) := by
  unfold receiptLines
  dsimp only
  rw [fromUTF8_toUTF8]
  dsimp only
  rw [lines_journal readCodec_renders h, List.filterMap_map]
  refine congrArg _ (List.filterMap_congr fun ps hps => ?_)
  have hrender : plainAudit.render (.object ps) = .ofList (Json.write (.object ps)) := rfl
  rw [Function.comp_apply, hrender, String.toList_ofList, Json.read_write (h ps hps)]
  rfl

/-- What the engine reads of a journal of this campaign. -/
theorem parseJsonl_campaign {disk : Disk} (h : Journal plainAudit disk DEFAULT_OUT
    ((campaignPhases.map phaseRequest).map (plugFields plainAudit))) :
    plainAudit.parseJsonl (disk.read DEFAULT_OUT) =
      .ok (campaignPhases.map fun pid => (phaseRequest pid).receipt) := by
  have hfile := h.file.resolve_right fun hnil => absurd hnil.1 (List.cons_ne_nil _ _)
  have hread : disk.read DEFAULT_OUT = .bytes (journalText plainAudit
      ((campaignPhases.map phaseRequest).map (plugFields plainAudit))).toUTF8 := by
    unfold Disk.read
    rw [hfile]
  have hparse : plainAudit.parseJsonl = receiptLines := rfl
  rw [hparse, hread, receiptLines_journal h.plain, List.map_map, List.filterMap_map]
  have hmap : campaignPhases.filterMap
      ((fun ps => receiptOf (.object ps)) ∘ plugFields plainAudit ∘ phaseRequest) =
      campaignPhases.filterMap fun pid => some (phaseRequest pid).receipt :=
    List.filterMap_congr receiptOf_phase
  rw [hmap, List.filterMap_eq_map']

theorem mem_campaign {r : AppendRequest} (h : r ∈ campaignPhases.map phaseRequest) :
    ∃ pid ∈ campaignPhases, r = phaseRequest pid := by
  obtain ⟨pid, hpid, rfl⟩ := List.mem_map.1 h
  exact ⟨pid, hpid, rfl⟩

/-- What this campaign recorded is accepted, for the hash it declares. -/
theorem campaign_accepted : CampaignAccepted (some "run-7") EMPTY_SHA256 none
    (campaignPhases.map phaseRequest)
    (plainAudit.summaryReceipt (campaignPhases.map fun pid => (phaseRequest pid).receipt))
    (some "run-7") where
  roster pid hpid hne := by
    refine ⟨phaseRequest pid, List.mem_map_of_mem ?_, rfl⟩
    revert pid
    decide
  artifact := by
    refine ⟨by decide, fun r hr => ?_⟩
    obtain ⟨pid, -, rfl⟩ := mem_campaign hr
    rfl
  path r hr r' hr' p p' hp hp' := by
    obtain ⟨pid, -, rfl⟩ := mem_campaign hr
    obtain ⟨pid', -, rfl⟩ := mem_campaign hr'
    exact Option.some.inj (hp.symm.trans hp')
  passed := by
    refine ⟨rfl, fun r hr => ?_⟩
    obtain ⟨pid, -, rfl⟩ := mem_campaign hr
    rfl
  gapFree := by
    refine ⟨fun g hg => absurd hg List.not_mem_nil, fun r hr => ?_⟩
    obtain ⟨pid, -, rfl⟩ := mem_campaign hr
    exact fun g hg => absurd hg List.not_mem_nil
  expected exp hexp rid hrid := by
    obtain ⟨runId, hmem, hgiven⟩ := List.mem_filterMap.1 hrid
    have hrun : runId = some "run-7" := by
      rcases List.mem_append.1 hmem with hmem | hmem
      · obtain ⟨r, hr, rfl⟩ := List.mem_map.1 hmem
        obtain ⟨pid, -, rfl⟩ := mem_campaign hr
        rfl
      · exact List.mem_singleton.1 hmem
    rw [hrun] at hgiven
    exact Option.some.inj (hgiven.symm.trans hexp)
  cross rid last hrid := nomatch hrid

theorem plainDisk_fresh : plainDisk false DEFAULT_OUT = none := by decide +kernel

/-- No receipt is there before. -/
theorem journal_fresh : Journal plainAudit (plainDisk false) DEFAULT_OUT [] :=
  ⟨fun _ h => absurd h List.not_mem_nil, .inr ⟨rfl, plainDisk_fresh⟩⟩

theorem campaign_unbroken : ∀ i ∈ campaign campaignPhases, i.env.writeEnd.Unbroken := by
  intro i hi
  obtain ⟨pid, -, rfl⟩ := List.mem_map.1 hi
  exact fun _ _ h => nomatch h

theorem phaseLines_campaign :
    phaseLines ((campaignPhases.map phaseRequest).map (plugFields plainAudit)) =
      (campaignPhases.map phaseRequest).map (plugFields plainAudit) := by
  rw [phaseLines_recorded plainAudit_serializes]
  rfl

/-- The summary of this campaign succeeds. -/
theorem summary_campaign : (cmdSummary plainAudit readCodec campaignEnv []
    (runAll plainAudit readCodec (campaign campaignPhases) (plainDisk false))).1.code = 0 := by
  obtain ⟨hj, -, -⟩ := runAll_campaign (fun _ h => h) journal_fresh
  rw [List.nil_append] at hj
  have hne : campaignPhases.map phaseRequest ≠ [] := List.cons_ne_nil _ _
  have hdeclares := (declares_iff plainAudit_serializes hne).2
    ⟨campaign_accepted.artifact, campaign_accepted.path⟩
  obtain ⟨path, hdeclared⟩ := declaredArtifact_of hdeclares
  have hby : declaredBy ((phaseLines ((campaignPhases.map phaseRequest).map
      (plugFields plainAudit))).map .object) = .ok (some ⟨path, EMPTY_SHA256⟩) := by
    rw [phaseLines_campaign]
    unfold declaredBy
    rw [hdeclared]
  exact cmdSummary_succeeds readCodec_renders hj (List.cons_ne_nil _ _) rfl
    (parseJsonl_campaign hj) (List.cons_ne_nil _ _) hby rfl

/-- The receipt of this campaign: the six phases in their order, and the overall line. -/
theorem journal_kept_campaign : ∃ overall, isOverall (.object overall) = true ∧
    Journal plainAudit (cmdSummary plainAudit readCodec campaignEnv []
      (runAll plainAudit readCodec (campaign campaignPhases) (plainDisk false))).2 DEFAULT_OUT
      ((campaignPhases.map phaseRequest).map (plugFields plainAudit) ++ [overall]) := by
  obtain ⟨-, hdone⟩ := journal_kept readCodec_renders plainAudit_serializes campaign_unbroken
    journal_fresh
  obtain ⟨overall, hoverall, hjournal⟩ := hdone campaignEnv [] rfl summary_campaign
  obtain ⟨-, hrecorded, -⟩ := runAll_campaign (fun _ h => h) journal_fresh
  rw [hrecorded, phaseLines_campaign] at hjournal
  exact ⟨overall, hoverall, hjournal⟩

/-- Six phases of one run on the file, recorded and summed up, are certified. -/
theorem campaign_certified : (evaluateCertification readCodec
    (cmdSummary plainAudit readCodec campaignEnv []
      (runAll plainAudit readCodec (campaign campaignPhases) (plainDisk false))).2 0 "nam_plug.clap"
    "build-receipt.json" DEFAULT_OUT true (some "run-7")).status = "CERTIFIED" := by
  obtain ⟨hj, hrecorded, hother⟩ := runAll_campaign (fun _ h => h) journal_fresh
  rw [List.nil_append] at hj
  have hphases : phasesRecorded plainAudit readCodec DEFAULT_OUT (campaign campaignPhases)
      (plainDisk false) = campaignPhases.map phaseRequest := by
    unfold phasesRecorded
    rw [hrecorded]
    rfl
  have hout : ∀ p, p ≠ DEFAULT_OUT → summaryOut [] ≠ some p := by
    intro p hp h
    have hdefault : some DEFAULT_OUT = some p := h
    exact hp (Option.some.inj hdefault).symm
  have hsame : ∀ p, p ≠ DEFAULT_OUT → (cmdSummary plainAudit readCodec campaignEnv []
      (runAll plainAudit readCodec (campaign campaignPhases) (plainDisk false))).2 p =
        plainDisk false p :=
    fun p hp => (cmdSummary_other (hout p hp)).trans (hother p hp)
  have hcode := summary_campaign
  obtain ⟨hartifact, hbuild, -⟩ := plainDisk_files false
  rcases hsummary : cmdSummary plainAudit readCodec campaignEnv []
    (runAll plainAudit readCodec (campaign campaignPhases) (plainDisk false)) with ⟨exit, disk⟩
  rw [hsummary] at hcode hsame
  dsimp only at hcode hsame ⊢
  have hartifact' := (hsame "nam_plug.clap" (by decide)).trans hartifact
  have hbuild' := (hsame "build-receipt.json" (by decide)).trans hbuild
  obtain ⟨flags, audit, hflags, haudit, hiff⟩ := campaign_certified_iff readCodec_renders
    plainAudit_serializes campaign_unbroken plainDisk_fresh rfl hsummary hcode 0 "nam_plug.clap"
    "build-receipt.json" true (some "run-7")
  obtain rfl := Except.ok.inj hflags
  obtain rfl := Except.ok.inj ((parseJsonl_campaign hj).symm.trans haudit)
  rw [hphases] at hiff
  refine hiff.2 ⟨EMPTY_SHA256, plainBuild false, plainBuildText false, ?_, ?_, ?_,
    (plainEvidence_accepted false).build, campaign_accepted⟩
  · unfold hashFile Disk.read
    rw [hartifact']
    rfl
  · refine readToString_eq_ok.2 ?_
    unfold Disk.read
    rw [hbuild']
  · unfold readCodec plainCodec
    dsimp only
    rw [if_pos rfl]

end NamPlug.Receipt
