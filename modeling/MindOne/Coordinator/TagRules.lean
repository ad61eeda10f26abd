import MindOne.Coordinator.Admission
import MindOne.Coordinator.Heartbeats

/-!
# Three comparisons of one tag

The claim query and the check of a regulated node compare tags by their lower case; the
policy that a claim is checked against afterwards trims them as well, and turns away a
policy with a blank tag. What the first two let pass fails the third exactly where the
trimming matters.
-/

namespace MindOne.Coordinator

open CheckedArithmetic Accounting

/-- No tag of the job is a rejected one, up to the case that a comparison ignores. -/
def TagsOffered (lower : String → String) (tags rejectTags : List String) : Prop :=
  ∀ requested ∈ tags, ∀ rejected ∈ rejectTags, lower requested ≠ lower rejected

/-- The claim query offers a job only past its filter of tags. -/
theorem Job.NodeFits.tagsOffered {env : Services} {job : Job} {db : Db} {node : Node}
    {policy : NodePolicyRow} {metrics : Option NodeMetrics}
    (h : job.NodeFits env db node policy metrics) :
    TagsOffered env.lower job.tags policy.rejectTags :=
  h.2.2.2.1

/-- And so does the check of a regulated node. -/
theorem LockedNode.AcceptsRoute.tagsOffered {locked : LockedNode} {metrics : Option NodeMetrics}
    {tags : List String} {expectedReportId : Option Uuid} {nowUtc : Int}
    (h : locked.AcceptsRoute metrics tags expectedReportId nowUtc) :
    TagsOffered String.toLower tags locked.policy.rejectTags :=
  fun requested hrequested rejected hrejected heq =>
    h.2.2.2.2.2.1 requested hrequested rejected hrejected heq.symm

/-- The policy of the accounting crate, as `enforce_current_policy` builds it. -/
def NodePolicyDto.accounting (policy : NodePolicyDto) : NodePolicy where
  rejectTags := policy.rejectTags
  maxConcurrent := policy.maxConcurrent
  gpuTempLimitC := policy.gpuTempLimitC
  vramReserveMib := policy.vramReserveMib
  resumeTempHysteresisC := 5

/-- The evaluation ends at the tags. -/
def FailsForTags (policy : NodePolicy) (runtime : NodeRuntime) : Prop :=
  (∃ tag, evaluatePolicy policy runtime = .ok (.reject (.rejectedTag tag))) ∨
    evaluatePolicy policy runtime = .error (.invalidPolicy "拒绝标签为空或无效")

/-- Nothing depends on the trimming: no rejected tag is blank or has a control character, and
no two tags are equal only once they are trimmed. -/
def TrimmingIdle (tags rejectTags : List String) : Prop :=
  (∀ rejected ∈ rejectTags, isBlank rejected = false ∧ hasControl rejected = false) ∧
    ∀ requested ∈ tags, ∀ rejected ∈ rejectTags,
      normalizedTag requested = normalizedTag rejected → requested.toLower = rejected.toLower

section Evaluation
variable {policy : NodePolicy} {runtime : NodeRuntime}

theorem rejectedTag_eq_none {rejectTags taskTags : List String} :
    rejectedTag rejectTags taskTags = none ↔
      ∀ requested ∈ taskTags, ∀ rejected ∈ rejectTags,
        normalizedTag requested ≠ normalizedTag rejected := by
  simp only [rejectedTag, List.head?_eq_none_iff]
  rw [← List.length_eq_zero_iff, List.length_mergeSort, List.length_eq_zero_iff,
    List.filter_eq_nil_iff]
  simp only [List.mem_map, decide_eq_true_eq, not_exists, not_and, forall_exists_index, and_imp,
    forall_apply_eq_imp_iff₂]
  exact ⟨fun h requested hrequested rejected hrejected =>
      h rejected hrejected requested hrequested,
    fun h rejected hrejected requested hrequested => h requested hrequested rejected hrejected⟩

theorem temperatureDecision_ne {limit : Nat} {tag : String} :
    temperatureDecision policy runtime limit ≠ some (.reject (.rejectedTag tag)) := by
  intro h
  simp only [temperatureDecision] at h
  split at h
  · cases h
  · split_ifs at h <;> cases h

theorem vramDecision_ne {tag : String} :
    vramDecision policy runtime ≠ some (.reject (.rejectedTag tag)) := by
  intro h
  simp only [vramDecision] at h
  split at h
  · cases h
  · split at h
    · cases h
    · split at h <;> cases h

/-- Past the tags an evaluation does not speak of them again. -/
theorem evaluatePolicy_untagged (hvalid : policy.validate = .ok ())
    (htag : rejectedTag policy.rejectTags runtime.taskTags = none) :
    ¬FailsForTags policy runtime := by
  have heval : ∃ decision, evaluatePolicy policy runtime = .ok decision ∧
      ∀ tag, decision ≠ .reject (.rejectedTag tag) := by
    simp only [evaluatePolicy, hvalid, htag]
    by_cases hfull : runtime.currentConcurrent ≥ policy.maxConcurrent
    · exact ⟨_, if_pos hfull, fun tag h => by cases h⟩
    · cases htemperature : policy.gpuTempLimitC.bind (temperatureDecision policy runtime) with
      | some decision =>
          refine ⟨decision, by simp [bind, Except.bind, hfull], fun tag h => ?_⟩
          obtain ⟨limit, -, hdecision⟩ := Option.bind_eq_some_iff.mp htemperature
          exact temperatureDecision_ne (h ▸ hdecision)
      | none =>
          cases hvram : vramDecision policy runtime with
          | some decision =>
              exact ⟨decision, by simp [bind, Except.bind, hfull], fun tag h =>
                vramDecision_ne (h ▸ hvram)⟩
          | none => exact ⟨_, by simp [bind, Except.bind, hfull]; rfl, fun tag h => by cases h⟩
  obtain ⟨decision, hdecision, hother⟩ := heval
  rintro (⟨tag, htag⟩ | herror)
  · exact hother tag (Except.ok.inj (hdecision.symm.trans htag))
  · rw [hdecision] at herror
    cases herror

theorem failsForTags_of_tag (hvalid : policy.validate = .ok ()) {tag : String}
    (htag : rejectedTag policy.rejectTags runtime.taskTags = some tag) :
    FailsForTags policy runtime := by
  refine .inl ⟨tag, ?_⟩
  simp only [evaluatePolicy, hvalid, htag]
  rfl

end Evaluation

section Policies
variable {policy : NodePolicyDto} {runtime : NodeRuntime}

theorem validateTags_eq_ok {tags : List String} {u : Unit} : validateTags tags = .ok u ↔
    tags.length ≤ 32 ∧ ∀ tag ∈ tags, tag.isEmpty = false ∧ tag.utf8ByteSize ≤ 64 ∧
      ∀ c ∈ tag.toList, c.toNat < 128 := by
  simp only [validateTags, bind_eq_ok, rejectIf_eq_ok, exists_const, not_lt, List.any_eq_true,
    not_exists, not_and, Bool.or_eq_true, decide_eq_true_eq, not_or, not_le, Bool.not_eq_true,
    and_assoc]

/-- Of what a node registers the accounting crate only refuses tags. -/
theorem validate_accounting (h : policy.validate = .ok ()) :
    policy.accounting.validate =
      if ∀ rejected ∈ policy.rejectTags, isBlank rejected = false ∧ hasControl rejected = false
      then .ok () else .error (.invalidPolicy "拒绝标签为空或无效") := by
  simp only [NodePolicyDto.validate, bind_eq_ok, rejectIf_eq_ok, exists_const,
    validateTags_eq_ok, Option.any_eq_true, not_exists, not_and] at h
  obtain ⟨⟨-, htags⟩, hconcurrent, hlimit, -⟩ := h
  have hany : (policy.rejectTags.any fun tag =>
      isBlank tag || (utf8 tag).length > 128 || hasControl tag) = true ↔
      ¬∀ rejected ∈ policy.rejectTags, isBlank rejected = false ∧ hasControl rejected = false := by
    rw [List.any_eq_true]
    constructor
    · rintro ⟨tag, hmem, htag⟩ hclean
      obtain ⟨hblank, hcontrol⟩ := hclean tag hmem
      have hlength : (utf8 tag).length ≤ 64 := (htags tag hmem).2.1
      simp only [hblank, hcontrol, Bool.false_or, Bool.or_false, decide_eq_true_eq] at htag
      omega
    · intro hunclean
      push Not at hunclean
      obtain ⟨tag, hmem, htag⟩ := hunclean
      refine ⟨tag, hmem, ?_⟩
      cases hblank : isBlank tag with
      | true => rfl
      | false => simp [htag hblank]
  have hconcurrency : ¬policy.accounting.maxConcurrent = 0 := by
    show ¬policy.maxConcurrent = 0
    omega
  have htemperature : ¬∃ limit ∈ policy.accounting.gpuTempLimitC,
      limit = 0 ∨ policy.accounting.resumeTempHysteresisC ≥ limit := by
    rintro ⟨limit, hmem, hbad⟩
    have hbounds := hlimit limit hmem
    have hfive : policy.accounting.resumeTempHysteresisC = 5 := rfl
    simp only [decide_eq_true_eq] at hbounds
    omega
  rw [NodePolicy.validate, rejectIf_of_not _ hconcurrency, rejectIf_of_not _ htemperature, rejectIf]
  simp only [bind, Except.bind]
  split
  · rename_i hbad
    rw [if_neg (hany.mp hbad)]
  · rename_i hgood
    rw [if_pos (not_not.mp fun hunclean => hgood (hany.mpr hunclean))]

/-- What a comparison without trimming lets pass fails at the tags exactly where the trimming
matters. -/
theorem not_failsForTags_iff (hpolicy : policy.validate = .ok ()) {lower : String → String}
    (htags : ∀ requested ∈ runtime.taskTags, lower requested = requested.toLower)
    (hrejected : ∀ rejected ∈ policy.rejectTags, lower rejected = rejected.toLower)
    (hoffered : TagsOffered lower runtime.taskTags policy.rejectTags) :
    ¬FailsForTags policy.accounting runtime ↔
      TrimmingIdle runtime.taskTags policy.rejectTags := by
  have hvalid := validate_accounting hpolicy
  constructor
  · intro hpasses
    have hclean : ∀ rejected ∈ policy.rejectTags,
        isBlank rejected = false ∧ hasControl rejected = false := by
      by_contra hunclean
      rw [if_neg hunclean] at hvalid
      refine hpasses (.inr ?_)
      rw [evaluatePolicy, hvalid]
      rfl
    rw [if_pos hclean] at hvalid
    refine ⟨hclean, fun requested hrequested rejected hmem heq => ?_⟩
    cases htag : rejectedTag policy.accounting.rejectTags runtime.taskTags with
    | some tag => exact absurd (failsForTags_of_tag hvalid htag) hpasses
    | none => exact absurd heq (rejectedTag_eq_none.mp htag requested hrequested rejected hmem)
  · rintro ⟨hclean, hidle⟩
    rw [if_pos hclean] at hvalid
    refine evaluatePolicy_untagged hvalid (rejectedTag_eq_none.mpr ?_)
    intro requested hrequested rejected hmem heq
    refine hoffered requested hrequested rejected hmem ?_
    rw [htags requested hrequested, hrejected rejected hmem]
    exact hidle requested hrequested rejected hmem heq

/-- Of the jobs that one of the first two comparisons offers the evaluation takes those whose
tags do not depend on the trimming. SQL `lower` is that of ASCII on ASCII texts. -/
theorem offered_tags_accepted_iff (lower : String → String)
    (hlower : ∀ text : String, (∀ c ∈ text.toList, c.toNat < 128) → lower text = text.toLower)
    (policy : NodePolicyDto) (runtime : NodeRuntime)
    (htags : validateTags runtime.taskTags = .ok ()) (hpolicy : policy.validate = .ok ()) :
    (TagsOffered lower runtime.taskTags policy.rejectTags →
      (¬FailsForTags policy.accounting runtime ↔
        TrimmingIdle runtime.taskTags policy.rejectTags)) ∧
    (TagsOffered String.toLower runtime.taskTags policy.rejectTags →
      (¬FailsForTags policy.accounting runtime ↔
        TrimmingIdle runtime.taskTags policy.rejectTags)) := by
  have hrejected := hpolicy
  simp only [NodePolicyDto.validate, bind_eq_ok, validateTags_eq_ok] at hrejected
  obtain ⟨_, ⟨-, hrejected⟩, -⟩ := hrejected
  constructor
  · exact not_failsForTags_iff hpolicy
      (fun requested hmem => hlower requested ((validateTags_eq_ok.mp htags).2 requested hmem).2.2)
      (fun rejected hmem => hlower rejected (hrejected rejected hmem).2.2)
  · exact not_failsForTags_iff hpolicy (fun _ _ => rfl) (fun _ _ => rfl)

end Policies

section Samples

def sampleTagPolicy (rejectTags : List String) : NodePolicyDto := ⟨rejectTags, 1, none, 0⟩

def sampleTagRuntime (taskTags : List String) : NodeRuntime := ⟨taskTags, 0, none, none, false⟩

theorem offered_tags_accepted_iff_sample :
    ¬FailsForTags (sampleTagPolicy ["nsfw"]).accounting (sampleTagRuntime ["Llama", "long form"]) :=
  ((offered_tags_accepted_iff String.toLower (fun _ _ => rfl) (sampleTagPolicy ["nsfw"])
    (sampleTagRuntime ["Llama", "long form"]) (by decide +kernel) (by decide +kernel)).1
      (by unfold TagsOffered; decide +kernel)).mpr (by unfold TrimmingIdle; decide +kernel)

/-- A tag with a trailing space is offered and rejected, and a blank rejected tag fails every
job. -/
theorem offered_tags_accepted_iff_fails :
    (validateTags ["vision "] = .ok () ∧ (sampleTagPolicy ["vision"]).validate = .ok () ∧
      TagsOffered String.toLower ["vision "] ["vision"] ∧
      FailsForTags (sampleTagPolicy ["vision"]).accounting (sampleTagRuntime ["vision "])) ∧
    (sampleTagPolicy [" "]).validate = .ok () ∧ TagsOffered String.toLower ["chat"] [" "] ∧
      FailsForTags (sampleTagPolicy [" "]).accounting (sampleTagRuntime ["chat"]) := by
  refine ⟨⟨by decide +kernel, by decide +kernel, by unfold TagsOffered; decide +kernel,
    .inl ⟨"vision", by decide +kernel⟩⟩, by decide +kernel, by unfold TagsOffered; decide +kernel,
    .inr (by decide +kernel)⟩

end Samples

end MindOne.Coordinator
