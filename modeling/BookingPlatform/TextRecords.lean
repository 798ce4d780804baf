import BookingPlatform.TextRedis

/-!
# What the text of a record says

A dictionary represents a record when its values are those of the record's fields. What a
client or a worker writes represents what it means, and is read back as that.
-/

namespace BookingPlatform

set_option autoImplicit false

open Remote Strings Strings.Json

section Values
variable {pydantic : Pydantic}

/-- Fields are read back as they are written. -/
structure Pydantic.ReadsBack (pydantic : Pydantic) : Prop where
  uuid : ∀ u, pydantic.uuid? (uuidText u) = some u
  isoformat : ∀ t, Representable t → pydantic.datetime? (isoText t) = some t
  dumped : ∀ t, Representable t →
    pydantic.datetime? (.string (pydantic.dumpDatetime t)) = some t
  dumpedText : ∀ t, Representable t → ∀ c ∈ pydantic.dumpDatetime t, Scalar c
  int : ∀ n : Nat, pydantic.int? (intText n) = some n
  float : ∀ k : Nat, k ≤ 500 → pydantic.float? (floatText ((k : ℚ) / 100)) = some ((k : ℚ) / 100)
  str : ∀ s, pydantic.str? (.string s) = some s

@[simp] theorem points_iff {s t : String} : points s = points t ↔ s = t :=
  ⟨points_inj, fun h => h ▸ rfl⟩

theorem writable_textOf (depth : Nat) (s : String) : Writable depth (textOf s) :=
  .string (scalar_points s)

theorem writable_uuidText (depth : Nat) (u : UUID) : Writable depth (uuidText u) :=
  .string (scalar_strUuid u)

theorem writable_intText (depth : Nat) {n : Nat} (h : Short n) :
    Writable depth (intText n) := .number (lexeme_natural h)

theorem isDigit_digits (width n : Nat) : ∀ c ∈ (digits width n).map Char.toNat,
    isDigit c = true := by
  induction width generalizing n with
  | zero => exact nofun
  | succ width ih =>
    intro c hc
    rw [digits, List.map_append, List.mem_append] at hc
    rcases hc with hc | hc
    · exact ih (n / 10) c hc
    · obtain rfl := List.mem_singleton.mp hc
      rw [Nat.toNat_digitChar_of_lt_ten (Nat.mod_lt n (by decide))]
      unfold isDigit
      simp only [Bool.and_eq_true, decide_eq_true_eq]
      omega

theorem digits_cons (width n : Nat) : ∃ c cs, (digits (width + 1) n).map Char.toNat = c :: cs := by
  have hlength : ((digits (width + 1) n).map Char.toNat).length ≠ 0 := by
    rw [digits, List.map_append, List.length_append]
    exact Nat.succ_ne_zero _
  exact List.exists_cons_of_length_pos (Nat.pos_of_ne_zero hlength)

theorem writable_floatText (depth : Nat) (q : ℚ) : Writable depth (floatText q) := by
  refine .number ?_
  split
  · obtain ⟨c, cs, hcs⟩ := digits_cons 0 ((roundHalfEven (q * 100)).toNat / 10)
    rw [hcs]
    exact lexeme_decimal _ (hcs ▸ isDigit_digits _ _)
  · obtain ⟨c, cs, hcs⟩ := digits_cons 1 (roundHalfEven (q * 100)).toNat
    rw [hcs]
    exact lexeme_decimal _ (hcs ▸ isDigit_digits _ _)

end Values

section Records
variable (pydantic : Pydantic)

/-- A result as `process_summary_job` makes it. -/
structure ResultDump.Plain (raw : ResultDump) : Prop where
  count : ∃ n : Nat, raw.reviewCount = n ∧ Short n
  average : ∃ k : Nat, k ≤ 500 ∧ raw.averageRating = k / 100
  ratings : ∃ count : Int → Nat, (∀ r, Short (count r)) ∧
    raw.ratingDistribution = [1, 2, 3, 4, 5].map fun r => (r, count r)
  generatedAt : Representable raw.generatedAt

/-- None, or absent; or what is there. -/
def IsOptional {α : Type} (x : Option Json) (value : Option α) (R : Json → α → Prop) : Prop :=
  (value = none ∧ (x = none ∨ x = some .null)) ∨ ∃ a y, value = some a ∧ x = some y ∧ R y a

/-- The dictionary says what the record is. -/
structure Represents (d : Dict) (data : JobData) : Prop where
  jobId : d.get? (points "job_id") = some (uuidText data.jobId)
  status : d.get? (points "status") = some (textOf data.status.text)
  providerId : d.get? (points "provider_id") = some (uuidText data.providerId)
  result : IsOptional (d.get? (points "result")) data.result fun y raw =>
    raw.Plain ∧ y = raw.json pydantic
  error : IsOptional (d.get? (points "error")) data.error fun y text => y = textOf text
  createdAt : d.get? (points "created_at") = some (isoText data.createdAt)
  created : Representable data.createdAt
  updatedAt : d.get? (points "updated_at") = some (isoText data.updatedAt)
  updated : Representable data.updatedAt
  writable : d.Writable 2

variable {pydantic} {d : Dict} {data : JobData} {now : Time}

section Written

theorem writable_mark (h : d.Writable 2) (key : String) {x : Json} (hx : Json.Writable 2 x) :
    (d.set (points key) x).Writable 2 := h.set (scalar_points key) hx

theorem writable_empty : Dict.empty.Writable 2 := fun _ hm => nomatch hm

theorem represents_jobPayload (jobId providerId : UUID) (hnow : Representable now) :
    Represents pydantic (jobPayload jobId now providerId) (queuedJob jobId now providerId) := by
  unfold jobPayload Dict.ofItems queuedJob
  simp only [List.foldl_cons, List.foldl_nil]
  have htext : ∀ s, Json.Writable 2 (textOf s) := writable_textOf 2
  have huuid : ∀ u, Json.Writable 2 (uuidText u) := writable_uuidText 2
  constructor
  case writable =>
    apply writable_mark _ _ (htext _)
    apply writable_mark _ _ (htext _)
    apply writable_mark _ _ .null
    apply writable_mark _ _ .null
    apply writable_mark _ _ (huuid _)
    apply writable_mark _ _ (htext _)
    exact writable_mark writable_empty _ (huuid _)
  case created => exact hnow
  case updated => exact hnow
  case result => exact .inl ⟨rfl, .inr (by simp)⟩
  case error => exact .inl ⟨rfl, .inr (by simp)⟩
  all_goals simp [JobStatus.text]

theorem represents_fresh (clock : JobClock) (jobId providerId : UUID)
    (hstarted : Representable clock.started) :
    Represents pydantic (markStarted (.ofItems [
      (points "job_id", uuidText jobId),
      (points "provider_id", uuidText providerId),
      (points "created_at", isoText clock.started)]) clock.started)
      (.started none jobId providerId clock.started) := by
  unfold markStarted Dict.ofItems JobData.started queuedJob
  simp only [List.foldl_cons, List.foldl_nil]
  have htext : ∀ s, Json.Writable 2 (textOf s) := writable_textOf 2
  have huuid : ∀ u, Json.Writable 2 (uuidText u) := writable_uuidText 2
  constructor
  case writable =>
    apply writable_mark _ _ (htext _)
    apply writable_mark _ _ (htext _)
    apply writable_mark _ _ (htext _)
    apply writable_mark _ _ (huuid _)
    exact writable_mark writable_empty _ (huuid _)
  case created => exact hstarted
  case updated => exact hstarted
  case result =>
    exact .inl ⟨rfl, .inl (by simp)⟩
  case error =>
    exact .inl ⟨rfl, .inl (by simp)⟩
  all_goals simp [JobStatus.text]

theorem Represents.started (h : Represents pydantic d data) (jobId providerId : UUID)
    (hnow : Representable now) :
    Represents pydantic (markStarted d now) (.started (some data) jobId providerId now) := by
  unfold markStarted JobData.started
  constructor
  case writable =>
    exact writable_mark (writable_mark h.writable _ (writable_textOf 2 _)) _ (writable_textOf 2 _)
  case created => exact h.created
  case updated => exact hnow
  case jobId => simpa using h.jobId
  case providerId => simpa using h.providerId
  case createdAt => simpa using h.createdAt
  case result => simpa using h.result
  case error => simpa using h.error
  all_goals simp [JobStatus.text]

theorem Represents.failed (h : Represents pydantic d data) (error : String)
    (hnow : Representable now) : Represents pydantic (markFailed d error now)
      (data.failed error now) := by
  unfold markFailed JobData.failed
  have htext : ∀ s, Json.Writable 2 (textOf s) := writable_textOf 2
  constructor
  case writable =>
    exact writable_mark (writable_mark (writable_mark h.writable _ (htext _)) _ (htext _)) _
      (htext _)
  case created => exact h.created
  case updated => exact hnow
  case jobId => simpa using h.jobId
  case providerId => simpa using h.providerId
  case createdAt => simpa using h.createdAt
  case result => simpa using h.result
  case error => exact .inr ⟨error, textOf error, rfl, by simp, rfl⟩
  all_goals simp [JobStatus.text]

theorem writable_result {raw : ResultDump} (h : raw.Plain) (hpydantic : pydantic.ReadsBack) :
    Json.Writable 2 (raw.json pydantic) := by
  obtain ⟨n, hn, hbound⟩ := h.count
  obtain ⟨count, hcount, hratings⟩ := h.ratings
  have hdistribution : Json.Writable 1 (.object (raw.ratingDistribution.map fun m =>
      (points (toString m.1), intText m.2))) := by
    rw [hratings]
    refine .object (fun m hm => ?_) fun m hm => ?_
    · obtain ⟨x, _, rfl⟩ := List.mem_map.mp hm
      exact scalar_points _
    · obtain ⟨x, hx, rfl⟩ := List.mem_map.mp hm
      obtain ⟨r, _, rfl⟩ := List.mem_map.mp hx
      exact writable_intText 0 (hcount r)
  unfold ResultDump.json
  refine .object (fun m hm => ?_) fun m hm => ?_
  · simp only [List.mem_cons, List.not_mem_nil, or_false] at hm
    rcases hm with rfl | rfl | rfl | rfl | rfl | rfl | rfl
    all_goals exact scalar_points _
  · simp only [List.mem_cons, List.not_mem_nil, or_false] at hm
    rcases hm with rfl | rfl | rfl | rfl | rfl | rfl | rfl
    · exact writable_uuidText 1 _
    · exact writable_textOf 1 _
    · rw [hn]
      exact writable_intText 1 hbound
    · exact writable_floatText 1 _
    · exact hdistribution
    · exact writable_textOf 1 _
    · exact .string (hpydantic.dumpedText _ h.generatedAt)

theorem Represents.completed (h : Represents pydantic d data) {result : ReviewSummaryResult}
    (hplain : result.Plain) (hpydantic : pydantic.ReadsBack) (hnow : Representable now) :
    Represents pydantic (markCompleted pydantic d result now) (data.completed result now) := by
  unfold markCompleted JobData.completed
  have htext : ∀ s, Json.Writable 2 (textOf s) := writable_textOf 2
  constructor
  case writable =>
    refine writable_mark (writable_mark (writable_mark (writable_mark h.writable _ (htext _)) _ ?_)
      _ .null) _ (htext _)
    exact writable_result hplain hpydantic
  case created => exact h.created
  case updated => exact hnow
  case jobId => simpa using h.jobId
  case providerId => simpa using h.providerId
  case createdAt => simpa using h.createdAt
  case result =>
    exact .inr ⟨result.toResultDump, result.toResultDump.json pydantic, rfl, by simp, hplain, rfl⟩
  case error => exact .inl ⟨rfl, .inr (by simp)⟩
  all_goals simp [JobStatus.text]

end Written

section Read

def ResultDump.view (raw : ResultDump) : ResultView where
  providerId := raw.providerId
  providerName := points raw.providerName
  reviewCount := raw.reviewCount
  averageRating := raw.averageRating
  ratingDistribution := raw.ratingDistribution.map fun m => (points (toString m.1), (m.2 : Int))
  summary := points raw.summary
  generatedAt := raw.generatedAt

/-- What a client sees of a response. -/
def ReviewSummaryJobResponse.view (response : ReviewSummaryJobResponse) : JobView where
  jobId := response.jobId
  status := response.status
  providerId := response.providerId
  result := response.result.map fun result => result.view
  error := response.error.map points
  createdAt := response.createdAt
  updatedAt := response.updatedAt

theorem mapM_map {α β γ : Type} {f : α → β} {g : β → Option γ} {h : α → γ} {xs : List α}
    (hg : ∀ x ∈ xs, g (f x) = some (h x)) : (xs.map f).mapM g = some (xs.map h) := by
  induction xs with
  | nil => rfl
  | cons x xs ih =>
    rw [List.map_cons, List.mapM_cons, hg x List.mem_cons_self,
      ih fun y hy => hg y (List.mem_cons_of_mem x hy)]
    rfl

theorem read_counts (hpydantic : pydantic.ReadsBack) (count : Int → Nat) :
    counts? pydantic (.object (([1, 2, 3, 4, 5].map fun r => (r, count r)).map fun m =>
        (points (toString m.1), intText m.2))) =
      some (([1, 2, 3, 4, 5].map fun r => (r, count r)).map fun m =>
        (points (toString m.1), (m.2 : Int))) := by
  have hkeys : (((([1, 2, 3, 4, 5] : List Int).map fun r => (r, count r)).map fun m =>
      (points (toString m.1), intText m.2)).map Prod.fst).Nodup := by
    rw [List.map_map, List.map_map]
    change (([1, 2, 3, 4, 5] : List Int).map fun r => points (toString r)).Nodup
    decide
  unfold counts? dict?
  simp only [Option.bind_eq_bind, Option.bind_some, Dict.items_ofItems hkeys]
  refine mapM_map fun m _ => ?_
  rw [hpydantic.int]
  rfl

theorem ResultDump.Plain.bounds {raw : ResultDump} (h : raw.Plain) :
    0 ≤ raw.reviewCount ∧ 0 ≤ raw.averageRating ∧ raw.averageRating ≤ 5 := by
  obtain ⟨n, hn, _⟩ := h.count
  obtain ⟨k, hk, haverage⟩ := h.average
  have hk' : (k : ℚ) ≤ 500 := by exact_mod_cast hk
  rw [hn, haverage]
  refine ⟨Int.natCast_nonneg n, by positivity, ?_⟩
  linarith

theorem read_result {raw : ResultDump} (h : raw.Plain) (hpydantic : pydantic.ReadsBack) :
    ResultView.read? pydantic (raw.json pydantic) = some raw.view := by
  obtain ⟨n, hn, _⟩ := h.count
  obtain ⟨k, hk, haverage⟩ := h.average
  obtain ⟨count, _, hratings⟩ := h.ratings
  have hbounds := h.bounds
  have hcounts := read_counts hpydantic count
  rw [← hratings] at hcounts
  have hcount : pydantic.int? (intText raw.reviewCount) = some raw.reviewCount := by
    rw [hn]
    exact hpydantic.int n
  have hfloat : pydantic.float? (floatText raw.averageRating) = some raw.averageRating := by
    rw [haverage]
    exact hpydantic.float k hk
  unfold ResultView.read? ResultDump.json dict? Dict.ofItems
  simp only [List.foldl_cons, List.foldl_nil, Dict.get?_set, points_iff, String.reduceEq,
    reduceIte, Option.bind_eq_bind, Option.bind_some, hpydantic.uuid, hpydantic.str, hcount,
    hfloat, hcounts, hbounds, and_self, textOf, hpydantic.dumped _ h.generatedAt, ResultDump.view]

theorem optional_read {α β : Type} {x : Option Json} {value : Option α} {R : Json → α → Prop}
    (read? : Json → Option β) (shown : α → β) (h : IsOptional x value R)
    (hread : ∀ y a, R y a → isNull y = false ∧ read? y = some (shown a)) :
    optional read? x = some (value.map shown) := by
  rcases h with ⟨rfl, rfl | rfl⟩ | ⟨a, y, rfl, rfl, hya⟩
  · rfl
  · rfl
  · obtain ⟨hnull, hy⟩ := hread y a hya
    unfold optional
    dsimp only
    rw [hnull, hy]
    rfl

theorem read_status (hpydantic : pydantic.ReadsBack) (status : JobStatus) :
    JobStatus.read? pydantic (textOf status.text) = some status := by
  unfold JobStatus.read? textOf
  rw [hpydantic.str]
  cases status <;> simp [JobStatus.text]

/-- A record is read back from the dictionary that represents it. -/
theorem Represents.read (h : Represents pydantic d data) (hpydantic : pydantic.ReadsBack) :
    ∃ response, data.validate = .ok response ∧
      validateJob pydantic d = .ok response.view ∧ response.jobId = data.jobId := by
  obtain ⟨result, hresult, hview⟩ : ∃ result : Option ReviewSummaryResult,
      data.result.mapM ResultDump.validate = .ok result ∧
        data.result.map ResultDump.view = result.map fun result => result.view := by
    rcases h.result with ⟨hnone, _⟩ | ⟨raw, y, hsome, _, hplain, _⟩
    · rw [hnone]
      exact ⟨none, rfl, rfl⟩
    · have hbounds := hplain.bounds
      rw [hsome]
      refine ⟨some { raw with countBound := hbounds.1, averageBounds := hbounds.2 }, ?_, rfl⟩
      have hvalid : raw.validate =
          .ok { raw with countBound := hbounds.1, averageBounds := hbounds.2 } := dif_pos hbounds
      change (do let a ← raw.validate; pure (some a)) = _
      rw [hvalid]
      rfl
  refine ⟨⟨data.jobId, data.status, data.providerId, result, data.error, data.createdAt,
    some data.updatedAt⟩, ?_, ?_, rfl⟩
  · unfold JobData.validate
    rw [hresult]
    rfl
  · have hread := optional_read (ResultView.read? pydantic) ResultDump.view h.result
      fun y raw hraw => ⟨hraw.2 ▸ rfl, hraw.2 ▸ read_result hraw.1 hpydantic⟩
    have herror := optional_read pydantic.str? points h.error
      fun y text htext => ⟨htext ▸ rfl, htext ▸ hpydantic.str _⟩
    have hupdated : optional pydantic.datetime? (some (isoText data.updatedAt)) =
        some (some data.updatedAt) := by
      have hiso := hpydantic.isoformat _ h.updated
      unfold optional
      dsimp only
      rw [hiso]
      rfl
    unfold validateJob JobView.read?
    simp only [h.jobId, h.status, h.providerId, hread, herror, h.createdAt, h.updatedAt, hupdated,
      hpydantic.uuid, hpydantic.isoformat _ h.created, read_status hpydantic, hview,
      Option.bind_eq_bind, Option.bind_some, ReviewSummaryJobResponse.view]

theorem dumps_ne_nil (d : Dict) : d.dumps ≠ [] := by
  unfold Dict.dumps
  rw [Json.dumps]
  exact List.cons_ne_nil _ _

theorem present_dumps (d : Dict) : present (some d.dumps) = some d.dumps := by
  unfold present
  rw [Option.filter_some, if_pos (by simpa using dumps_ne_nil d)]

/-- Its text is loaded as the dictionary it was. -/
theorem Represents.load (h : Represents pydantic d data) {py : Interpreter}
    (hdepth : 3 ≤ py.recursionDepth) : loadDict py d.dumps = .ok d := by
  unfold loadDict
  rw [Dict.loads_dumps (h.writable.object.mono hdepth)]

end Read

end Records

end BookingPlatform
