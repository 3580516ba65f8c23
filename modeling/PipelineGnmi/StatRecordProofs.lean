import PipelineGnmi.Float64Proofs
import PipelineGnmi.GoMapProofs
import PipelineGnmi.TransitionProofs

/-! # Statistics of tracked sensors

    `statRecordTable` of `metrics.go`.  An update finds its record, or creates
    it, under the lock of the table, and then moves the record's time on under
    the lock of the record; an eviction may come in between, and the update then
    goes to a record that is no longer in the table.

    A record lives on as long as somebody points to it, so records are kept by
    their place and the table maps a key to a place.  `created` and `deltas` are
    the history of a record: along every run the deltas add up to the time that
    has passed on it (`stats_exact`). -/

namespace PipelineStatRecord

open Transition

/-- `STATEVICTIONSTALE`. -/
def statEvictionStale : UInt64 := 300000

/-- `statRecord`, with the time it was created at and the deltas observed. -/
structure StatRecord where
  key : String
  created : UInt64
  lastTS : UInt64
  deltas : List UInt64

variable {statSensorCount : Int}

/-- The numbers the observer of a record was given: each delta as a double. -/
def StatRecord.observed (r : StatRecord) : List Nat :=
  r.deltas.map (fun d => Float64.roundNat d.toNat)

/-- An update that has its record and does not hold its lock yet. -/
structure Pending where
  record : Nat
  key : String
  ts : UInt64

/-- `statRecordTable` and the records made so far; `statCacheFull` and `outOfSeq`
    are the keys these counters were incremented for, in order. -/
structure StatTable where
  statSensorCount : Int
  statRecords : List (String × Nat)
  records : List StatRecord
  updates : List Pending
  statCacheFull : List String
  outOfSeq : List String

inductive StatLabel where
  | statRecordFindOrCreate (key : String) (ts : UInt64)
  | statRecordUpdate (i : Nat)
  | evictStale (now : UInt64)

/-- `statRecordFindOrCreate`: the record, or nil when the table is full. -/
def statRecordFindOrCreate (s : StatTable) (key : String) (ts : UInt64) : StatTable × Option Nat :=
  match GoMap.get s.statRecords key with
  | some r => (s, some r)
  | none =>
      if (s.statRecords.length : Int) ≥ s.statSensorCount then (s, none)
      else
        ({ s with
            statRecords := GoMap.set s.statRecords key s.records.length
            records := s.records ++ [⟨key, ts, ts, []⟩] }, some s.records.length)

variable {s t : StatTable} {a : StatLabel}

/-- The part of `statRecordUpdate` under the lock of the record. -/
def advanceRecord (r : StatRecord) (ts : UInt64) : StatRecord :=
  if ts > r.lastTS then { r with deltas := r.deltas ++ [ts - r.lastTS], lastTS := ts } else r

/-- The test of `evictStale`. -/
def isStale (now : UInt64) (r : StatRecord) : Bool :=
  decide (now > r.lastTS) && decide (now - r.lastTS > statEvictionStale)

/-- Whether the table's entry is for a stale record. -/
def staleEntry (s : StatTable) (now : UInt64) (e : String × Nat) : Bool :=
  match s.records[e.2]? with
  | none => false
  | some r => isStale now r

/-- `evictStale`; deleting while ranging over a map is allowed. -/
def evictStale (s : StatTable) (now : UInt64) : List (String × Nat) :=
  s.statRecords.foldl (fun m e => if staleEntry s now e then GoMap.del m e.1 else m)
    s.statRecords

/-- One step under one lock.  `statRecordUpdate` looks its record up, and gives up
    when it gets none, before it locks the record. -/
def statStep (s : StatTable) : StatLabel → Option StatTable
  | .statRecordFindOrCreate key ts =>
      match statRecordFindOrCreate s key ts with
      | (s', none) => some { s' with statCacheFull := s'.statCacheFull ++ [key] }
      | (s', some r) => some { s' with updates := s'.updates ++ [⟨r, key, ts⟩] }
  | .statRecordUpdate i =>
      match s.updates[i]? with
      | none => none
      | some u =>
          match s.records[u.record]? with
          | none => none
          | some r => some { s with
              records := s.records.set u.record (advanceRecord r u.ts)
              updates := s.updates.eraseIdx i
              outOfSeq := if u.ts < r.lastTS then s.outOfSeq ++ [u.key] else s.outOfSeq }
  | .evictStale now => some { s with statRecords := evictStale s now }

/-- The table as `configure` sets it up. -/
def statTable (statSensorCount : Int) : System StatTable StatLabel where
  init := ⟨statSensorCount, [], [], [], [], []⟩
  next := statStep

/-! ## One record -/

variable {ts : UInt64} {key : String} (r : StatRecord) (stale : String × Nat → Bool)

theorem advanceRecord_lastTS (ts : UInt64) : r.lastTS ≤ (advanceRecord r ts).lastTS := by
  unfold advanceRecord
  split
  · next h => exact UInt64.le_of_lt h
  · exact UInt64.le_refl _

theorem advanceRecord_created (ts : UInt64) : (advanceRecord r ts).created = r.created := by
  unfold advanceRecord
  split <;> rfl

/-- The deltas of a record are positive and add up to the time it has gone
    through. -/
structure Exact (r : StatRecord) : Prop where
  positive : ∀ d ∈ r.deltas, 0 < d
  total : (r.deltas.map UInt64.toNat).sum + r.created.toNat = r.lastTS.toNat

theorem exact_fresh (key : String) (ts : UInt64) : Exact ⟨key, ts, ts, []⟩ :=
  ⟨fun _ hd => absurd hd List.not_mem_nil, Nat.zero_add _⟩

/-- A later timestamp is a delta that does not wrap. -/
theorem toNat_delta {last : UInt64} (h : ts > last) :
    (ts - last).toNat + last.toNat = ts.toNat := by
  have hlt : last.toNat < ts.toNat := UInt64.lt_iff_toNat_lt.mp h
  rw [UInt64.toNat_sub_of_le ts last (UInt64.le_of_lt h)]
  omega

theorem Exact.advance {r : StatRecord} (hr : Exact r) (ts : UInt64) :
    Exact (advanceRecord r ts) := by
  unfold advanceRecord
  split
  · next h =>
      have hdelta := toNat_delta h
      constructor
      · intro d hd
        rcases List.mem_append.mp hd with hd | hd
        · exact hr.positive d hd
        · rw [List.mem_singleton.mp hd]
          have hlt : r.lastTS.toNat < ts.toNat := UInt64.lt_iff_toNat_lt.mp h
          refine UInt64.lt_iff_toNat_lt.mpr ?_
          show 0 < (ts - r.lastTS).toNat
          omega
      · have htotal := hr.total
        show ((r.deltas ++ [ts - r.lastTS]).map UInt64.toNat).sum + r.created.toNat = ts.toNat
        rw [List.map_append, List.sum_append, List.map_singleton, List.sum_singleton]
        omega
  · exact hr

theorem le_sum_of_mem {l : List Nat} {n : Nat} (h : n ∈ l) : n ≤ l.sum :=
  List.single_le_sum (fun _ _ => Nat.zero_le _) n h

/-- The observer got positive numbers, and as long as the whole of them is below
    `2 ^ 53` they are the deltas. -/
theorem Exact.observed {r : StatRecord} (hr : Exact r) :
    (∀ x ∈ r.observed, 0 < x) ∧
      (r.lastTS.toNat - r.created.toNat ≤ 2 ^ 53 →
        r.observed = r.deltas.map UInt64.toNat) := by
  constructor
  · intro x hx
    obtain ⟨d, hd, rfl⟩ := List.mem_map.mp hx
    exact Float64.roundNat_pos (UInt64.lt_iff_toNat_lt.mp (hr.positive d hd))
  · intro hle
    refine List.map_congr_left ?_
    intro d hd
    have hd := le_sum_of_mem (List.mem_map_of_mem (f := UInt64.toNat) hd)
    have htotal := hr.total
    exact Float64.roundNat_of_le (by omega)

/-! ## The table -/

/-- The loop of `evictStale` keeps the entries whose key it does not come by as
    stale. -/
theorem mem_foldl_del (e : String × Nat) :
    ∀ (l m : List (String × Nat)),
      e ∈ l.foldl (fun m e => if stale e then GoMap.del m e.1 else m) m ↔
        e ∈ m ∧ ∀ x ∈ l, stale x = true → x.1 ≠ e.1 := by
  intro l
  induction l with
  | nil => intro m; simp
  | cons x rest ih =>
      intro m
      rw [List.foldl_cons, ih, List.forall_mem_cons]
      by_cases hx : stale x = true
      · rw [if_pos hx, GoMap.del, List.mem_filter, decide_eq_true_iff]
        constructor
        · rintro ⟨⟨hm, hne⟩, hrest⟩
          exact ⟨hm, fun _ => Ne.symm hne, hrest⟩
        · rintro ⟨hm, hne, hrest⟩
          exact ⟨⟨hm, Ne.symm (hne hx)⟩, hrest⟩
      · rw [if_neg hx]
        constructor
        · rintro ⟨hm, hrest⟩
          exact ⟨hm, fun h => absurd h hx, hrest⟩
        · rintro ⟨hm, -, hrest⟩
          exact ⟨hm, hrest⟩

/-- Keys are evicted in place: what is left is a sublist. -/
theorem foldl_del_sublist :
    ∀ (l m : List (String × Nat)),
      (l.foldl (fun m e => if stale e then GoMap.del m e.1 else m) m).Sublist m := by
  intro l
  induction l with
  | nil => intro m; exact List.Sublist.refl m
  | cons x rest ih =>
      intro m
      rw [List.foldl_cons]
      refine (ih _).trans ?_
      split
      · exact List.filter_sublist
      · exact List.Sublist.refl m

/-- Over distinct keys exactly the stale entries go. -/
theorem mem_evictStale (hnd : (s.statRecords.map Prod.fst).Nodup) (now : UInt64)
    (e : String × Nat) : e ∈ evictStale s now ↔ e ∈ s.statRecords ∧ staleEntry s now e = false := by
  rw [evictStale, mem_foldl_del]
  refine and_congr_right fun hmem => ?_
  constructor
  · intro hkeys
    refine Bool.eq_false_iff.mpr fun hstale => ?_
    exact hkeys e hmem hstale rfl
  · intro hfresh x hx hstale hkey
    obtain rfl : x = e := List.inj_on_of_nodup_map hnd hx hmem hkey
    rw [hfresh] at hstale
    cases hstale

/-- A record is stale when it is more than the limit behind, without a wrap. -/
theorem isStale_iff (now : UInt64) (r : StatRecord) :
    isStale now r = true ↔ r.lastTS.toNat + statEvictionStale.toNat < now.toNat := by
  rw [isStale, Bool.and_eq_true, decide_eq_true_iff, decide_eq_true_iff]
  constructor
  · rintro ⟨hlt, hfar⟩
    have hdelta := toNat_delta hlt
    have hfar : statEvictionStale.toNat < (now - r.lastTS).toNat :=
      UInt64.lt_iff_toNat_lt.mp hfar
    omega
  · intro h
    have hlt : now > r.lastTS := UInt64.lt_iff_toNat_lt.mpr (by omega)
    have hdelta := toNat_delta hlt
    refine ⟨hlt, UInt64.lt_iff_toNat_lt.mpr ?_⟩
    show statEvictionStale.toNat < (now - r.lastTS).toNat
    omega

/-- The invariant of the table. -/
structure StatInv (statSensorCount : Int) (s : StatTable) : Prop where
  count : s.statSensorCount = statSensorCount
  bounded : s.statRecords.length ≤ (max 0 statSensorCount).toNat
  nodup : (s.statRecords.map Prod.fst).Nodup
  entries : ∀ e ∈ s.statRecords, e.2 < s.records.length
  pending : ∀ u ∈ s.updates, u.record < s.records.length
  exact : ∀ r ∈ s.records, Exact r

theorem statInv_init (statSensorCount : Int) :
    StatInv statSensorCount (statTable statSensorCount).init where
  count := rfl
  bounded := Nat.zero_le _
  nodup := List.nodup_nil
  entries := fun _ h => absurd h List.not_mem_nil
  pending := fun _ h => absurd h List.not_mem_nil
  exact := fun _ h => absurd h List.not_mem_nil

/-- A key that is not in the table gets an entry of its own. -/
theorem nodup_set {m : List (String × Nat)} (hnd : (m.map Prod.fst).Nodup)
    (hnone : GoMap.get m key = none) (p : Nat) :
    ((GoMap.set m key p).map Prod.fst).Nodup ∧ (GoMap.set m key p).length = m.length + 1 := by
  have hfresh : ∀ e ∈ m, e.1 ≠ key := by
    intro e he hkey
    have hfind := List.find?_eq_none.mp (Option.map_eq_none_iff.mp hnone) e he
    simp [hkey] at hfind
  have hdel : GoMap.del m key = m :=
    List.filter_eq_self.mpr (fun e he => decide_eq_true (hfresh e he))
  rw [GoMap.set, hdel]
  refine ⟨List.nodup_cons.mpr ⟨?_, hnd⟩, rfl⟩
  intro hmem
  obtain ⟨e, he, hkey⟩ := List.mem_map.mp hmem
  exact hfresh e he hkey

/-! ## What a step can do -/

/-- The effect of a step, with what it requires. -/
inductive Acts (s : StatTable) : StatLabel → StatTable → Prop where
  | found {key : String} {ts : UInt64} {p : Nat} : GoMap.get s.statRecords key = some p →
      Acts s (.statRecordFindOrCreate key ts) { s with updates := s.updates ++ [⟨p, key, ts⟩] }
  | full {key : String} {ts : UInt64} : GoMap.get s.statRecords key = none →
      s.statSensorCount ≤ s.statRecords.length →
      Acts s (.statRecordFindOrCreate key ts)
        { s with statCacheFull := s.statCacheFull ++ [key] }
  | created {key : String} {ts : UInt64} : GoMap.get s.statRecords key = none →
      (s.statRecords.length : Int) < s.statSensorCount →
      Acts s (.statRecordFindOrCreate key ts) { s with
        statRecords := GoMap.set s.statRecords key s.records.length
        records := s.records ++ [⟨key, ts, ts, []⟩]
        updates := s.updates ++ [⟨s.records.length, key, ts⟩] }
  | updated {i : Nat} {u : Pending} {r : StatRecord} : s.updates[i]? = some u →
      s.records[u.record]? = some r →
      Acts s (.statRecordUpdate i) { s with
        records := s.records.set u.record (advanceRecord r u.ts)
        updates := s.updates.eraseIdx i
        outOfSeq := if u.ts < r.lastTS then s.outOfSeq ++ [u.key] else s.outOfSeq }
  | evicted {now : UInt64} :
      Acts s (.evictStale now) { s with statRecords := evictStale s now }

/-- **STEP CASES**: every step acts as listed. -/
theorem acts_of_step (h : statStep s a = some t) : Acts s a t := by
  cases a with
  | statRecordFindOrCreate key ts =>
      simp only [statStep, statRecordFindOrCreate] at h
      cases hget : GoMap.get s.statRecords key with
      | some p =>
          rw [hget] at h
          cases h
          exact .found hget
      | none =>
          rw [hget] at h
          by_cases hfull : (s.statRecords.length : Int) ≥ s.statSensorCount
          · simp only [if_pos hfull] at h
            cases h
            exact .full hget hfull
          · simp only [if_neg hfull] at h
            cases h
            exact .created hget (by omega)
  | statRecordUpdate i =>
      simp only [statStep] at h
      split at h
      · cases h
      · next u hu =>
          split at h
          · cases h
          · next r hr =>
              cases h
              exact .updated hu hr
  | evictStale now =>
      cases h
      exact .evicted

theorem statInv_step (hs : StatInv statSensorCount s) (h : statStep s a = some t) :
    StatInv statSensorCount t := by
  cases acts_of_step h with
  | @found key ts p hget =>
      refine ⟨hs.count, hs.bounded, hs.nodup, hs.entries, ?_, hs.exact⟩
      intro u hu
      rcases List.mem_append.mp hu with hu | hu
      · exact hs.pending u hu
      · rw [List.mem_singleton.mp hu]
        exact hs.entries _ (GoMap.mem_of_get hget)
  | full _ _ => exact ⟨hs.count, hs.bounded, hs.nodup, hs.entries, hs.pending, hs.exact⟩
  | @created key ts hnone hroom =>
      obtain ⟨hnd, hlen⟩ := nodup_set hs.nodup hnone s.records.length
      have hmore : (s.records ++ [(⟨key, ts, ts, []⟩ : StatRecord)]).length
          = s.records.length + 1 := List.length_append
      refine ⟨hs.count, ?_, hnd, ?_, ?_, ?_⟩
      · show (GoMap.set s.statRecords key s.records.length).length ≤ _
        rw [hs.count] at hroom
        rw [hlen]
        omega
      · intro e he
        show e.2 < (s.records ++ _).length
        rw [hmore]
        rcases List.mem_cons.mp he with rfl | he
        · exact Nat.lt_succ_self _
        · exact Nat.lt_succ_of_lt (hs.entries e (List.mem_filter.mp he).1)
      · intro u hu
        show u.record < (s.records ++ _).length
        rw [hmore]
        rcases List.mem_append.mp hu with hu | hu
        · exact Nat.lt_succ_of_lt (hs.pending u hu)
        · rw [List.mem_singleton.mp hu]
          exact Nat.lt_succ_self _
      · intro r hr
        rcases List.mem_append.mp hr with hr | hr
        · exact hs.exact r hr
        · rw [List.mem_singleton.mp hr]
          exact exact_fresh key ts
  | @updated i u r hu hr =>
      have hlen : (s.records.set u.record (advanceRecord r u.ts)).length = s.records.length :=
        List.length_set
      refine ⟨hs.count, hs.bounded, hs.nodup, ?_, ?_, ?_⟩
      · intro e he
        show e.2 < (s.records.set _ _).length
        rw [hlen]
        exact hs.entries e he
      · intro v hv
        show v.record < (s.records.set _ _).length
        rw [hlen]
        exact hs.pending v (List.eraseIdx_subset hv)
      · intro x hx
        rcases List.mem_or_eq_of_mem_set hx with hx | rfl
        · exact hs.exact x hx
        · exact (hs.exact r (List.mem_of_getElem? hr)).advance u.ts
  | @evicted now =>
      have hsub := foldl_del_sublist (staleEntry s now) s.statRecords s.statRecords
      exact ⟨hs.count, hsub.length_le.trans hs.bounded, (hsub.map Prod.fst).nodup hs.nodup,
        fun e he => hs.entries e (hsub.subset he), hs.pending, hs.exact⟩

/-! ## Every run -/

/-- What a step does to a record: nothing, or an update that is later adds one
    delta, which is the difference of the two times. -/
inductive Observes (s : StatTable) (a : StatLabel) (p : Nat) (r : StatRecord) :
    StatRecord → Prop where
  | kept : Observes s a p r r
  | delta {i : Nat} {u : Pending} : a = .statRecordUpdate i → s.updates[i]? = some u →
      u.record = p → r.lastTS < u.ts → (u.ts - r.lastTS).toNat = u.ts.toNat - r.lastTS.toNat →
      Observes s a p r { r with deltas := r.deltas ++ [u.ts - r.lastTS], lastTS := u.ts }

/-- What a step may do: no record goes back in time, and each observes as
    listed; `outOfSeq` counts the updates that come late, and an eviction takes
    the records that are too far behind. -/
structure Advances (s : StatTable) (a : StatLabel) (t : StatTable) : Prop where
  records : ∀ p r, s.records[p]? = some r → ∃ r', t.records[p]? = some r' ∧
    r.lastTS ≤ r'.lastTS ∧ r'.created = r.created ∧ Observes s a p r r'
  late : ∀ i u r, a = .statRecordUpdate i → s.updates[i]? = some u →
    s.records[u.record]? = some r →
    t.outOfSeq = s.outOfSeq ++ if u.ts < r.lastTS then [u.key] else []
  inOrder : (∀ i, a ≠ .statRecordUpdate i) → t.outOfSeq = s.outOfSeq
  evicted : ∀ now, a = .evictStale now → ∀ key p r, s.records[p]? = some r →
    (key, p) ∈ s.statRecords →
    ((key, p) ∉ t.statRecords ↔ r.lastTS.toNat + statEvictionStale.toNat < now.toNat)
  added : ∀ now, a = .evictStale now → t.statRecords ⊆ s.statRecords

theorem observes_advance {i : Nat} {u : Pending} (hu : s.updates[i]? = some u) (r : StatRecord) :
    Observes s (.statRecordUpdate i) u.record r (advanceRecord r u.ts) := by
  unfold advanceRecord
  split
  · next h =>
      have hdelta := toNat_delta h
      exact .delta rfl hu rfl h (by omega)
  · exact .kept

/-- A lookup leaves the records and the count of late updates alone. -/
theorem advances_lookup (hrecords : ∀ (p : Nat) r, s.records[p]? = some r → t.records[p]? = some r)
    (hseq : t.outOfSeq = s.outOfSeq) : Advances s (.statRecordFindOrCreate key ts) t where
  records := fun p r hr => ⟨r, hrecords p r hr, UInt64.le_refl _, rfl, .kept⟩
  late := by
    intro i u r ha
    cases ha
  inOrder := fun _ => hseq
  evicted := by
    intro now ha
    cases ha
  added := by
    intro now ha
    cases ha

theorem advances_step (hs : StatInv statSensorCount s) (h : statStep s a = some t) :
    Advances s a t := by
  cases acts_of_step h with
  | found _ => exact advances_lookup (fun _ _ hr => hr) rfl
  | full _ _ => exact advances_lookup (fun _ _ hr => hr) rfl
  | created _ _ =>
      refine advances_lookup (fun p r hr => ?_) rfl
      have hlt : p < s.records.length := (List.getElem?_eq_some_iff.mp hr).1
      show (s.records ++ _)[p]? = some r
      rw [List.getElem?_append_left hlt]
      exact hr
  | @updated i u r hu hr =>
      refine ⟨?_, ?_, fun hno => absurd rfl (hno i), ?_, ?_⟩
      · intro p x hx
        by_cases hp : u.record = p
        · subst hp
          obtain rfl : r = x := Option.some.inj (hr.symm.trans hx)
          have hlt : u.record < s.records.length := (List.getElem?_eq_some_iff.mp hr).1
          exact ⟨_, List.getElem?_set_self hlt, advanceRecord_lastTS r u.ts,
            advanceRecord_created r u.ts, observes_advance hu r⟩
        · refine ⟨x, ?_, UInt64.le_refl _, rfl, .kept⟩
          show (s.records.set _ _)[p]? = some x
          rw [List.getElem?_set_ne hp]
          exact hx
      · intro i' u' r' ha hu' hr'
        cases ha
        obtain rfl : u = u' := Option.some.inj (hu.symm.trans hu')
        obtain rfl : r = r' := Option.some.inj (hr.symm.trans hr')
        show (if u.ts < r.lastTS then _ else _) = _
        split
        · rfl
        · exact (List.append_nil _).symm
      · intro now ha
        cases ha
      · intro now ha
        cases ha
  | @evicted now =>
      refine ⟨fun p r hr => ⟨r, hr, UInt64.le_refl _, rfl, .kept⟩, ?_, fun _ => rfl, ?_, ?_⟩
      · intro i u r ha
        cases ha
      · intro now' ha key p r hr hmem
        cases ha
        have hstale : staleEntry s now (key, p) = isStale now r := by
          simp only [staleEntry, hr]
        show (key, p) ∉ evictStale s now ↔ _
        rw [mem_evictStale hs.nodup, hstale, ← isStale_iff, not_and, Bool.not_eq_false]
        exact ⟨fun hgone => hgone hmem, fun hgone _ => hgone⟩
      · intro now' ha e he
        cases ha
        exact ((mem_evictStale hs.nodup now e).mp he).1

/-- What holds in a state: the table is bounded, what it and the updates under way
    point to is a record, and every record, in the table or not, has observed
    positive deltas that add up to the time between its creation and its last update;
    the doubles they are observed as are these numbers as long as that time is within
    `2 ^ 53`. -/
structure Accounts (statSensorCount : Int) (s : StatTable) : Prop where
  bounded : (s.statRecords.length : Int) ≤ max 0 statSensorCount
  entries : ∀ e ∈ s.statRecords, ∃ r, s.records[e.2]? = some r
  pending : ∀ u ∈ s.updates, ∃ r, s.records[u.record]? = some r
  deltas : ∀ r ∈ s.records, ∀ d ∈ r.deltas, 0 < d
  total : ∀ r ∈ s.records,
    (r.deltas.map UInt64.toNat).sum = r.lastTS.toNat - r.created.toNat ∧ r.created ≤ r.lastTS
  observed : ∀ r ∈ s.records, (∀ x ∈ r.observed, 0 < x) ∧
    (r.lastTS.toNat - r.created.toNat ≤ 2 ^ 53 →
      r.observed.sum = r.lastTS.toNat - r.created.toNat)

theorem StatInv.accounts (hs : StatInv statSensorCount s) : Accounts statSensorCount s where
  bounded := by
    have hbound := hs.bounded
    omega
  entries := fun e he => ⟨_, List.getElem?_eq_getElem (hs.entries e he)⟩
  pending := fun u hu => ⟨_, List.getElem?_eq_getElem (hs.pending u hu)⟩
  deltas := fun r hr => (hs.exact r hr).positive
  total := by
    intro r hr
    have htotal := (hs.exact r hr).total
    exact ⟨by omega, UInt64.le_iff_toNat_le.mpr (by omega)⟩
  observed := by
    intro r hr
    have htotal := (hs.exact r hr).total
    obtain ⟨hpos, heq⟩ := (hs.exact r hr).observed
    refine ⟨hpos, fun hle => ?_⟩
    rw [heq hle]
    omega

/-- **STATISTICS ARE BOUNDED AND EXACT**, for any interleaving of lookups, updates
    and evictions, of any keys and times. -/
theorem stats_exact (statSensorCount : Int) {s : StatTable}
    (hs : Reach (statTable statSensorCount) anyStep s) :
    Accounts statSensorCount s ∧
      ∀ a t, statStep s a = some t → Advances s a t := by
  have hi : StatInv statSensorCount s := hs.invariant (I := StatInv statSensorCount)
    (statInv_init statSensorCount) (fun _ _ _ hi _ hstep => statInv_step hi hstep)
  exact ⟨hi.accounts, fun _ _ hstep => advances_step hi hstep⟩

/-- A record is evicted between the lookup of an update and the update itself,
    which still observes its delta. -/
theorem stats_exact_evicted : ∃ s : StatTable, Reach (statTable 1) anyStep s ∧
    s.statRecords = [] ∧ s.outOfSeq = ["a"] ∧ s.statCacheFull = ["b"] ∧
    s.records.map StatRecord.deltas = [[2]] ∧
    Accounts 1 s ∧ ∀ a t, statStep s a = some t → Advances s a t := by
  have h1 : Reach (statTable 1) anyStep _ :=
    .next .init trivial (a := .statRecordFindOrCreate "a" 5) rfl
  have h2 := Reach.next h1 trivial (a := .statRecordFindOrCreate "a" 7) rfl
  have h3 := Reach.next h2 trivial (a := .statRecordFindOrCreate "a" 3) rfl
  have h4 := Reach.next h3 trivial (a := .statRecordFindOrCreate "b" 9) rfl
  have h5 := Reach.next h4 trivial (a := .statRecordUpdate 0) rfl
  have h6 := Reach.next h5 trivial (a := .evictStale 300006) rfl
  have h7 := Reach.next h6 trivial (a := .statRecordUpdate 0) rfl
  have h8 := Reach.next h7 trivial (a := .statRecordUpdate 0) rfl
  exact ⟨_, h8, rfl, rfl, rfl, rfl, stats_exact 1 h8⟩

end PipelineStatRecord
