import PipelineGnmi.PrometheusLineProofs

/-! # Pushing to the gateway

    `flushMetric` of `metrics_prometheus.go` posts what is in the buffer to a URL
    made from the tags, and empties the buffer once the gateway has replied.  It
    returns before that when the request cannot be made or sent: then the lines of
    the group stay in the buffer and go out with the next group.

    `push_isolated_iff` says for which replies every body has the lines of its own
    group only. -/

namespace PipelinePrometheusPush

open PipelineMessage PipelineDataMsg PipelineMetricsSpec PipelineGpbKvMetrics
open PipelineGpbMetrics PipelineMetricGroups PipelinePrometheusLine
open PipelineTagCoherence hiding produceMetrics

/-! ## The handler -/

/-- `fnv.New64a`. -/
def fnv64a (bytes : List UInt8) : UInt64 :=
  bytes.foldl (fun h b => (h ^^^ b.toUInt64) * 1099511628211) 14695981039346656037

/-- What is written to `instanceBuf`. -/
def instanceText (sprint : AtomVal → String) : List MetricsAtom → String
  | [] => ""
  | tag :: rest => tag.key ++ "=\"" ++ sprint tag.val ++ "\" " ++ instanceText sprint rest

/-- The number that tells the group apart, if it has tags. -/
def groupHash (sprint : AtomVal → String) (tags : List MetricsAtom) : UInt64 :=
  fnv64a (instanceText sprint tags).toUTF8.data.toList

/-- The URL a group is pushed to. -/
def groupURL (pushURL : String) (sprint : AtomVal → String) (tags : List MetricsAtom) : String :=
  if (instanceText sprint tags).utf8ByteSize ≠ 0 then
    pushURL ++ "_" ++ toString (groupHash sprint tags).toNat
  else pushURL

/-- How a push ends: with a reply of the gateway, whatever its status, with a
    request that cannot be made, or with one that fails before its body is read. -/
inductive PushOutcome where
  | replied (statusCode : Nat)
  | requestError
  | transportError

def PushOutcome.isReplied : PushOutcome → Bool
  | .replied _ => true
  | _ => false

/-- A body that was posted, by the metrics whose lines it has. -/
structure Post where
  tags : List MetricsAtom
  url : String
  body : List Build

/-- The worker's buffer, by the metrics whose lines it holds (no line is empty, so
    neither is a buffer with one), what was posted, and how the next pushes end. -/
structure PushContext where
  buf : List Build
  posts : List Post
  outcomes : Nat → PushOutcome

section Handler

variable (pushURL : String) (sprint : AtomVal → String)

/-- `flushMetric`.  A status other than 202 is only logged. -/
def flushMetric (tags : List MetricsAtom) (c : PushContext) : PushContext :=
  if c.buf.isEmpty then c
  else
    match c.outcomes 0 with
    | .requestError => { c with outcomes := fun k => c.outcomes (k + 1) }
    | .transportError => { c with outcomes := fun k => c.outcomes (k + 1) }
    | .replied _ =>
        { buf := [], posts := c.posts ++ [⟨tags, groupURL pushURL sprint tags, c.buf⟩]
          outcomes := fun k => c.outcomes (k + 1) }

/-- One call of a producer. -/
def call (c : PushContext) : MetricEvent → PushContext
  | .buildMetric tags sensor ts => { c with buf := c.buf ++ [⟨tags, sensor, ts⟩] }
  | .flushMetric tags _ => flushMetric pushURL sprint tags c
  | .statRecordUpdate _ _ => c

/-- The calls of a producer, in order. -/
def run (c : PushContext) (evs : List MetricEvent) : PushContext :=
  evs.foldl (call pushURL sprint) c

/-! ## What is posted -/

/-- The posts for groups that all push, with lines left over from before. -/
def pushes : (Nat → PushOutcome) → List Build → List Group → List Post
  | _, _, [] => []
  | outcomes, rest, g :: gs =>
      if (outcomes 0).isReplied then
        ⟨g.tags, groupURL pushURL sprint g.tags, rest ++ g.builds⟩
          :: pushes (fun k => outcomes (k + 1)) [] gs
      else pushes (fun k => outcomes (k + 1)) (rest ++ g.builds) gs

/-- A push takes the first outcome. -/
theorem flushMetric_eq (tags : List MetricsAtom) {c : PushContext} (hbuf : c.buf ≠ []) :
    flushMetric pushURL sprint tags c
      = if (c.outcomes 0).isReplied then
          ⟨[], c.posts ++ [⟨tags, groupURL pushURL sprint tags, c.buf⟩],
            fun k => c.outcomes (k + 1)⟩
        else { c with outcomes := fun k => c.outcomes (k + 1) } := by
  rw [flushMetric, if_neg (fun h => hbuf (List.isEmpty_iff.mp h))]
  cases c.outcomes 0 with
  | replied statusCode => rfl
  | requestError => rfl
  | transportError => rfl

/-- **THE POSTS OF A RUN**: when no group is empty, every flush pushes. -/
theorem run_posts :
    ∀ (evs : List MetricEvent) (rest pend : List Build) (posts : List Post)
      (outcomes : Nat → PushOutcome),
      (∀ g ∈ groupsFrom pend evs, g.builds ≠ []) →
      (run pushURL sprint ⟨rest ++ pend, posts, outcomes⟩ evs).posts
        = posts ++ pushes pushURL sprint outcomes rest (groupsFrom pend evs) := by
  intro evs
  induction evs with
  | nil =>
      intro rest pend posts outcomes _
      exact (List.append_nil posts).symm
  | cons ev evs ih =>
      intro rest pend posts outcomes hsolid
      rw [run, List.foldl_cons]
      cases ev with
      | buildMetric tags sensor ts =>
          rw [groupsFrom] at hsolid ⊢
          rw [← ih rest _ posts outcomes hsolid, ← List.append_assoc]
          rfl
      | statRecordUpdate key ts => exact ih rest pend posts outcomes hsolid
      | flushMetric tags ts =>
          rw [groupsFrom] at hsolid ⊢
          obtain ⟨hpend, hsolid⟩ := List.forall_mem_cons.mp hsolid
          have hbuf : rest ++ pend ≠ [] := fun h => hpend (List.append_eq_nil_iff.mp h).2
          rw [call, flushMetric_eq pushURL sprint tags hbuf, pushes]
          dsimp only
          by_cases hreplied : (outcomes 0).isReplied = true
          · rw [if_pos hreplied, if_pos hreplied]
            refine (ih [] [] _ _ hsolid).trans ?_
            rw [List.append_assoc]
            rfl
          · have hkept := ih (rest ++ pend) [] posts (fun k => outcomes (k + 1)) hsolid
            rw [List.append_nil] at hkept
            rw [if_neg hreplied, if_neg hreplied]
            exact hkept

end Handler

/-! ## Isolation -/

/-- Every body has lines of its own tags only. -/
def Isolated (posts : List Post) : Prop := ∀ p ∈ posts, ∀ b ∈ p.body, b.tags = p.tags

/-- A push that fails and the next one that is replied to, with none replied to in
    between, are for the same tags. -/
def FailsWithinTags (outcomes : Nat → PushOutcome) (gs : List Group) : Prop :=
  ∀ i j g g', i < j → gs[i]? = some g → gs[j]? = some g' →
    (outcomes j).isReplied = true → (∀ k, i ≤ k → k < j → (outcomes k).isReplied = false) →
    g.tags = g'.tags

/-- The first push that is replied to, if there is one, is for a group that is
    so. -/
def FirstReplied (outcomes : Nat → PushOutcome) (gs : List Group) (p : Group → Prop) : Prop :=
  ∀ j g, gs[j]? = some g → (outcomes j).isReplied = true →
    (∀ k, k < j → (outcomes k).isReplied = false) → p g

theorem firstReplied_cons (outcomes : Nat → PushOutcome) (g : Group) (gs : List Group)
    (p : Group → Prop) :
    FirstReplied outcomes (g :: gs) p ↔
      if (outcomes 0).isReplied then p g else FirstReplied (fun k => outcomes (k + 1)) gs p := by
  cases hreplied : (outcomes 0).isReplied with
  | true =>
      rw [if_pos rfl]
      constructor
      · intro h
        exact h 0 g rfl hreplied (fun k hk => absurd hk (Nat.not_lt_zero k))
      · intro hp j g' hg' _ hnone
        cases j with
        | zero =>
            obtain rfl := Option.some.inj hg'
            exact hp
        | succ j =>
            rw [hnone 0 (Nat.succ_pos j)] at hreplied
            cases hreplied
  | false =>
      rw [if_neg Bool.false_ne_true]
      constructor
      · intro h j g' hg' hj hnone
        refine h (j + 1) g' hg' hj ?_
        intro k hk
        cases k with
        | zero => exact hreplied
        | succ k => exact hnone k (by omega)
      · intro h j g' hg' hj hnone
        cases j with
        | zero =>
            rw [hreplied] at hj
            cases hj
        | succ j => exact h j g' hg' hj (fun k hk => hnone (k + 1) (by omega))

/-- The first group, and the groups behind it. -/
theorem failsWithinTags_cons (outcomes : Nat → PushOutcome) (g : Group) (gs : List Group) :
    FailsWithinTags outcomes (g :: gs) ↔
      ((outcomes 0).isReplied = false →
        FirstReplied (fun k => outcomes (k + 1)) gs (fun g' => g.tags = g'.tags)) ∧
      FailsWithinTags (fun k => outcomes (k + 1)) gs := by
  constructor
  · intro h
    refine ⟨fun hfailed j g' hg' hj hnone => ?_, fun i j g₁ g₂ hij h₁ h₂ hj hnone => ?_⟩
    · refine h 0 (j + 1) g g' (Nat.succ_pos j) rfl hg' hj ?_
      intro k _ hk
      cases k with
      | zero => exact hfailed
      | succ k => exact hnone k (by omega)
    · refine h (i + 1) (j + 1) g₁ g₂ (by omega) h₁ h₂ hj ?_
      intro k hk hkj
      obtain ⟨k, rfl⟩ : ∃ k', k = k' + 1 := ⟨k - 1, by omega⟩
      exact hnone k (by omega) (by omega)
  · rintro ⟨hfirst, hlater⟩ i j g₁ g₂ hij h₁ h₂ hj hnone
    obtain ⟨j, rfl⟩ : ∃ j', j = j' + 1 := ⟨j - 1, by omega⟩
    have hshift : ∀ k, i ≤ k + 1 → k < j → (outcomes (k + 1)).isReplied = false :=
      fun k hk hkj => hnone (k + 1) hk (by omega)
    cases i with
    | zero =>
        obtain rfl := Option.some.inj h₁
        exact hfirst (hnone 0 (Nat.le_refl 0) hij) j g₂ h₂ hj
          (fun k hk => hshift k (Nat.zero_le _) hk)
    | succ i =>
        exact hlater i j g₁ g₂ (by omega) h₁ h₂ hj (fun k hk hkj => hshift k (by omega) hkj)

/-- A group that joins other lines: all of them have the tags of a later group. -/
theorem forall_append_own {g : Group} (hne : g.builds ≠ [])
    (hown : ∀ b ∈ g.builds, b.tags = g.tags) (rest : List Build) (tags : List MetricsAtom) :
    (∀ b ∈ rest ++ g.builds, b.tags = tags) ↔
      (∀ b ∈ rest, b.tags = tags) ∧ g.tags = tags := by
  rw [List.forall_mem_append]
  refine and_congr_right fun _ => ?_
  constructor
  · intro h
    obtain ⟨b, hb⟩ := List.exists_mem_of_ne_nil _ hne
    exact (hown b hb).symm.trans (h b hb)
  · intro h b hb
    exact (hown b hb).trans h

/-- The lines left over, and those of the groups before, go out with the first
    group that is replied to. -/
theorem isolated_pushes_iff (pushURL : String) (sprint : AtomVal → String) :
    ∀ (gs : List Group) (outcomes : Nat → PushOutcome) (rest : List Build),
      (∀ g ∈ gs, g.builds ≠ [] ∧ ∀ b ∈ g.builds, b.tags = g.tags) →
      (Isolated (pushes pushURL sprint outcomes rest gs) ↔
        FirstReplied outcomes gs (fun g => ∀ b ∈ rest, b.tags = g.tags) ∧
        FailsWithinTags outcomes gs) := by
  intro gs
  induction gs with
  | nil =>
      intro outcomes rest _
      constructor
      · intro _
        refine ⟨fun j g hg => ?_, fun i j g g' _ hg => ?_⟩
        · cases hg
        · cases hg
      · exact fun _ _ hp => absurd hp List.not_mem_nil
  | cons g gs ih =>
      intro outcomes rest hgs
      obtain ⟨⟨hne, hown⟩, hgs⟩ := List.forall_mem_cons.mp hgs
      rw [pushes, firstReplied_cons, failsWithinTags_cons]
      cases hreplied : (outcomes 0).isReplied with
      | true =>
          -- the lines left over go out here
          rw [if_pos rfl, if_pos rfl, Isolated, List.forall_mem_cons]
          have hrest := ih (fun k => outcomes (k + 1)) [] hgs
          constructor
          · rintro ⟨hbody, htail⟩
            refine ⟨((forall_append_own hne hown rest g.tags).mp hbody).1, ?_, (hrest.mp htail).2⟩
            intro hfailed
            cases hfailed
          · rintro ⟨hfirst, -, hlater⟩
            refine ⟨(forall_append_own hne hown rest g.tags).mpr ⟨hfirst, rfl⟩, ?_⟩
            exact hrest.mpr ⟨fun _ _ _ _ _ b hb => absurd hb List.not_mem_nil, hlater⟩
      | false =>
          -- the group joins what is left over
          rw [if_neg Bool.false_ne_true, if_neg Bool.false_ne_true,
            ih (fun k => outcomes (k + 1)) (rest ++ g.builds) hgs]
          simp only [forall_append_own hne hown]
          constructor
          · rintro ⟨hfirst, hlater⟩
            exact ⟨fun j g' hg' hj hk => (hfirst j g' hg' hj hk).1,
              fun _ j g' hg' hj hk => (hfirst j g' hg' hj hk).2, hlater⟩
          · rintro ⟨hfirst, hown', hlater⟩
            exact ⟨fun j g' hg' hj hk =>
              ⟨hfirst j g' hg' hj hk, hown' trivial j g' hg' hj hk⟩, hlater⟩

/-- **WHEN GROUPS ARE ISOLATED**: for every GPB message, from an empty buffer, and
    for every sequence of outcomes. -/
theorem push_isolated_iff (env : MetricsEnv) (pushURL : String) (m : DataMsgGPB)
    (c : NameCache) (outcomes : Nat → PushOutcome) :
    Isolated (run pushURL env.handler.sprintAtom ⟨[], [], outcomes⟩
        (produceMetrics env m c).1).posts ↔
      FailsWithinTags outcomes (groups (produceMetrics env m c).1) := by
  have hsolid := solid_produceMetrics env m c
  have hposts := run_posts pushURL env.handler.sprintAtom (produceMetrics env m c).1 [] [] []
    outcomes hsolid.built
  rw [List.nil_append, List.nil_append, ← groups] at hposts
  rw [hposts, isolated_pushes_iff pushURL env.handler.sprintAtom _ outcomes []
    (fun g hg => ⟨hsolid.built g hg, settled_tags hsolid.settled g hg⟩)]
  exact and_iff_right (fun _ _ _ _ _ b hb => absurd hb List.not_mem_nil)

/-- Two interfaces, a row each. -/
def twoRowsKv : DataMsgGPB :=
  ⟨[], "r1",
    { nodeIdStr := none, subscriptionIdStr := none, encodingPath := "intf"
      collectionId := 0, collectionStartTime := 0, msgTimestamp := 7
      dataGpbkv :=
        [.mk 0 "" none
          [.mk 0 "keys" none [.mk 0 "name" (some (.string "eth0")) []],
           .mk 0 "content" none [.mk 0 "up" (some (.uint32 1)) []]],
         .mk 0 "" none
          [.mk 0 "keys" none [.mk 0 "name" (some (.string "eth1")) []],
           .mk 0 "content" none [.mk 0 "up" (some (.uint32 1)) []]]]
      dataGpb := none, collectionEndTime := 0 }⟩

/-- The push for the first interface fails to be sent; the body for the second has
    the line of the first as well. -/
theorem push_carries_over :
    ¬ Isolated (run "http://gw/metrics/job/telemetry/instance/p" samplePrometheus.sprintAtom
        ⟨[], [], fun k => if k = 0 then .transportError else .replied 202⟩
        (produceMetrics samplePrometheusEnv twoRowsKv ⟨[], [], 0⟩).1).posts := by
  intro hall
  have htags := hall _ (List.mem_cons_self ..) _ (List.mem_cons_self ..)
  have htexts := congrArg (List.map (fun a => samplePrometheus.sprintAtom a.val)) htags
  exact absurd htexts (by decide +kernel)

end PipelinePrometheusPush
