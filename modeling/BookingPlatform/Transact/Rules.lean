import BookingPlatform.Transact.Program

/-!
# What a program may commit

`wp` computes, from the commands of a program alone, the obligation at each of its
commits: the writes must be justified by what the client has been told so far.
It assumes nothing about the stores the answers came from, so one proof about a
program serves its solitary run here and every interleaving of it elsewhere.
-/

namespace Transact

set_option autoImplicit false

variable {D : Database} {α β : Type}

/-- An answer, with the query and the uncommitted statements it was computed over. -/
structure Entry (D : Database) where
  pending : List D.Write
  query : D.Query
  answer : D.Answer query

/-- The answer is still what the database would say in `s`. -/
def Entry.Current (e : Entry D) (s : D.Store) : Prop :=
  e.answer = D.answer e.query (D.view e.pending s)

/-- What a client has been told, what it has sent and what it has committed. -/
structure Client (D : Database) where
  log : List (Entry D)
  pending : List D.Write
  committed : List (List D.Write)

namespace Client

def start : Client D := ⟨[], [], []⟩

def learn (c : Client D) (q : D.Query) (a : D.Answer q) : Client D :=
  { c with log := ⟨c.pending, q, a⟩ :: c.log }

def wrote (c : Client D) (w : D.Write) : Client D := { c with pending := c.pending ++ [w] }

def wroteAll (c : Client D) (ws : List D.Write) : Client D :=
  { c with pending := c.pending ++ ws }

def abort (c : Client D) : Client D := { c with pending := [] }

def commit (c : Client D) (staged : List D.Write) : Client D :=
  { c with pending := [], committed := c.committed ++ [c.pending ++ staged] }

@[simp] theorem start_log : (start : Client D).log = [] := rfl
@[simp] theorem start_pending : (start : Client D).pending = [] := rfl
@[simp] theorem start_committed : (start : Client D).committed = [] := rfl

@[simp] theorem learn_log (c : Client D) (q : D.Query) (a : D.Answer q) :
    (c.learn q a).log = ⟨c.pending, q, a⟩ :: c.log := rfl
@[simp] theorem learn_pending (c : Client D) (q : D.Query) (a : D.Answer q) :
    (c.learn q a).pending = c.pending := rfl
@[simp] theorem learn_committed (c : Client D) (q : D.Query) (a : D.Answer q) :
    (c.learn q a).committed = c.committed := rfl

@[simp] theorem wrote_log (c : Client D) (w : D.Write) : (c.wrote w).log = c.log := rfl
@[simp] theorem wrote_pending (c : Client D) (w : D.Write) :
    (c.wrote w).pending = c.pending ++ [w] := rfl
@[simp] theorem wrote_committed (c : Client D) (w : D.Write) :
    (c.wrote w).committed = c.committed := rfl

@[simp] theorem wroteAll_log (c : Client D) (ws : List D.Write) :
    (c.wroteAll ws).log = c.log := rfl
@[simp] theorem wroteAll_pending (c : Client D) (ws : List D.Write) :
    (c.wroteAll ws).pending = c.pending ++ ws := rfl
@[simp] theorem wroteAll_committed (c : Client D) (ws : List D.Write) :
    (c.wroteAll ws).committed = c.committed := rfl

@[simp] theorem wroteAll_nil (c : Client D) : c.wroteAll [] = c := by
  simp [wroteAll]

@[simp] theorem wroteAll_wroteAll (c : Client D) (us ws : List D.Write) :
    (c.wroteAll us).wroteAll ws = c.wroteAll (us ++ ws) := by
  simp [wroteAll]

@[simp] theorem abort_log (c : Client D) : c.abort.log = c.log := rfl
@[simp] theorem abort_pending (c : Client D) : c.abort.pending = [] := rfl
@[simp] theorem abort_committed (c : Client D) : c.abort.committed = c.committed := rfl

@[simp] theorem commit_log (c : Client D) (ws : List D.Write) : (c.commit ws).log = c.log := rfl
@[simp] theorem commit_pending (c : Client D) (ws : List D.Write) :
    (c.commit ws).pending = [] := rfl
@[simp] theorem commit_committed (c : Client D) (ws : List D.Write) :
    (c.commit ws).committed = c.committed ++ [c.pending ++ ws] := rfl

end Client

/-- The obligation of one commit: the client as it stands, and all the writes of
the transaction. -/
abbrev Obligation (D : Database) := Client D → List D.Write → Prop

/-- A program that has committed once commits no more. -/
def Once (O : Obligation D) : Obligation D := fun c W => c.committed = [] ∧ O c W

namespace Program

def wp (O : Obligation D) :
    Program D α → Client D → (Except D.Error α → Client D → Prop) → Prop
  | .done r, c, Q => Q r c
  | .query q k, c, Q => ∀ s,
    (k (.ok (D.answer q (D.view c.pending s)))).wp O
      (c.learn q (D.answer q (D.view c.pending s))) Q
  | .execute w k, c, Q => ∀ s,
    match D.apply w (D.view c.pending s) with
    | .ok (r, _) => (k (.ok r)).wp O (c.wrote w) Q
    | .error e => (k (.error e)).wp O c.abort Q
  | .commit ws k, c, Q => O c (c.pending ++ ws) ∧
    (k (.ok ())).wp O (c.commit ws) Q ∧ ∀ e, (k (.error e)).wp O c.abort Q
  | .rollback k, c, Q => k.wp O c.abort Q

variable {O : Obligation D}

theorem wp_mono {p : Program D α} {c : Client D}
    {Q R : Except D.Error α → Client D → Prop} (h : p.wp O c Q)
    (hQR : ∀ r d, Q r d → R r d) : p.wp O c R := by
  induction p generalizing c with
  | done r => exact hQR _ _ h
  | query q k ih => exact fun s => ih _ (h s)
  | execute w k ih =>
    intro s
    have hs := h s
    split <;> rename_i heq <;> rw [heq] at hs <;> exact ih _ hs
  | commit ws k ih => exact ⟨h.1, ih _ h.2.1, fun e => ih _ (h.2.2 e)⟩
  | rollback k ih => exact ih h

theorem wp_obligation {O' : Obligation D} {p : Program D α} {c : Client D}
    {Q : Except D.Error α → Client D → Prop} (h : p.wp O c Q)
    (hO : ∀ d W, O d W → O' d W) : p.wp O' c Q := by
  induction p generalizing c with
  | done r => exact h
  | query q k ih => exact fun s => ih _ (h s)
  | execute w k ih =>
    intro s
    have hs := h s
    split <;> rename_i heq <;> rw [heq] at hs <;> exact ih _ hs
  | commit ws k ih => exact ⟨hO _ _ h.1, ih _ h.2.1, fun e => ih _ (h.2.2 e)⟩
  | rollback k ih => exact ih h

/-- What a client has been told it knows at all its commits to come. -/
theorem wp_remember {p : Program D α} {c : Client D} {Q : Except D.Error α → Client D → Prop}
    {e : Entry D} (h : p.wp O c Q) (he : e ∈ c.log) :
    p.wp (fun d W => e ∈ d.log ∧ O d W) c Q := by
  induction p generalizing c with
  | done r => exact h
  | query q k ih => exact fun s => ih _ (h s) (List.mem_cons_of_mem _ he)
  | execute w k ih =>
    intro s
    have hs := h s
    split <;> rename_i heq <;> rw [heq] at hs <;> exact ih _ hs he
  | commit ws k ih => exact ⟨⟨he, h.1⟩, ih _ h.2.1 he, fun e => ih _ (h.2.2 e) he⟩
  | rollback k ih => exact ih h he

/-- How a program goes on after a first part: what was raised is passed through. -/
def andThen (O : Obligation D) (f : α → Program D β)
    (Q : Except D.Error β → Client D → Prop) : Except D.Error α → Client D → Prop
  | .ok a, c => (f a).wp O c Q
  | .error e, c => Q (.error e) c

@[simp] theorem andThen_ok (f : α → Program D β) (Q : Except D.Error β → Client D → Prop)
    (a : α) (c : Client D) : andThen O f Q (.ok a) c ↔ (f a).wp O c Q := Iff.rfl

@[simp] theorem andThen_error (f : α → Program D β) (Q : Except D.Error β → Client D → Prop)
    (e : D.Error) (c : Client D) : andThen O f Q (.error e) c ↔ Q (.error e) c := Iff.rfl

theorem wp_bind {p : Program D α} {f : α → Program D β} {c : Client D}
    {Q : Except D.Error β → Client D → Prop} :
    (p >>= f).wp O c Q ↔ p.wp O c (andThen O f Q) := by
  change (p.bind f).wp O c Q ↔ _
  induction p generalizing c with
  | done r => cases r <;> rfl
  | query q k ih => exact forall_congr' fun s => ih _
  | execute w k ih =>
    refine forall_congr' fun s => ?_
    split <;> exact ih _
  | commit ws k ih =>
    exact and_congr Iff.rfl (and_congr (ih _) (forall_congr' fun e => ih _))
  | rollback k ih => exact ih

theorem wp_tryCatch {p : Program D α} {h : D.Error → Program D α} {c : Client D}
    {Q : Except D.Error α → Client D → Prop} :
    (tryCatch p h).wp O c Q ↔ p.wp O c fun r d =>
      match r with
      | .ok a => Q (.ok a) d
      | .error e => (h e).wp O d Q := by
  change (p.handle h).wp O c Q ↔ _
  induction p generalizing c with
  | done r => cases r <;> rfl
  | query q k ih => exact forall_congr' fun s => ih _
  | execute w k ih =>
    refine forall_congr' fun s => ?_
    split <;> exact ih _
  | commit ws k ih =>
    exact and_congr Iff.rfl (and_congr (ih _) (forall_congr' fun e => ih _))
  | rollback k ih => exact ih

section Commands
variable {c : Client D}

@[simp] theorem wp_pure {a : α} {Q : Except D.Error α → Client D → Prop} :
    (pure a : Program D α).wp O c Q ↔ Q (.ok a) c := Iff.rfl

@[simp] theorem wp_throw {e : D.Error} {Q : Except D.Error α → Client D → Prop} :
    (throw e : Program D α).wp O c Q ↔ Q (.error e) c := Iff.rfl

@[simp] theorem wp_ofExcept {r : Except D.Error α} {Q : Except D.Error α → Client D → Prop} :
    (ofExcept r).wp O c Q ↔ Q r c := Iff.rfl

@[simp] theorem wp_select {q : D.Query} {Q : Except D.Error (D.Answer q) → Client D → Prop} :
    (select q).wp O c Q ↔ ∀ s, Q (.ok (D.answer q (D.view c.pending s)))
      (c.learn q (D.answer q (D.view c.pending s))) := Iff.rfl

/-- A statement goes through or is refused; its result is one it can return. -/
theorem wp_send {w : D.Write} {Q : Except D.Error (D.Result w) → Client D → Prop}
    (hok : ∀ r, Q (.ok r) (c.wrote w)) (herr : ∀ e, Q (.error e) c.abort) :
    (send w).wp O c Q := by
  intro s
  split
  · exact hok _
  · exact herr _

@[simp] theorem wp_commitAll {ws : List D.Write} {Q : Except D.Error Unit → Client D → Prop} :
    (commitAll ws).wp O c Q ↔
      O c (c.pending ++ ws) ∧ Q (.ok ()) (c.commit ws) ∧ ∀ e, Q (.error e) c.abort := Iff.rfl

@[simp] theorem wp_rollbackAll {Q : Except D.Error Unit → Client D → Prop} :
    rollbackAll.wp O c Q ↔ Q (.ok ()) c.abort := Iff.rfl

theorem wp_refuseIf {b : Prop} [Decidable b] {e : D.Error}
    {Q : Except D.Error Unit → Client D → Prop} :
    (refuseIf b e).wp O c Q ↔ (b → Q (.error e) c) ∧ (¬ b → Q (.ok ()) c) := by
  unfold refuseIf
  split
  · rename_i hb
    simp [wp, hb]
  · rename_i hb
    simp [wp, hb]

theorem wp_runIf {b : Prop} [Decidable b] {p : Program D Unit}
    {Q : Except D.Error Unit → Client D → Prop} :
    (runIf b p).wp O c Q ↔ (b → p.wp O c Q) ∧ (¬ b → Q (.ok ()) c) := by
  unfold runIf
  split
  · rename_i hb
    simp [hb]
  · rename_i hb
    simp [wp, hb]

end Commands

section Success
variable {c : Client D} {L : D.Error → Prop}

/-- `Q` on success; an error is raised before any commit, or is one of `L`. -/
def settled (L : D.Error → Prop) (Q : α → Client D → Prop) : Except D.Error α → Client D → Prop
  | .ok a, d => Q a d
  | .error e, d => d.committed = [] ∨ L e

/-- Obligations at every commit, and a settled outcome. -/
def wpOk (L : D.Error → Prop) (O : Obligation D) (p : Program D α) (c : Client D)
    (Q : α → Client D → Prop) : Prop :=
  p.wp O c (settled L Q)

theorem wpOk_mono {p : Program D α} {Q R : α → Client D → Prop} (h : p.wpOk L O c Q)
    (hQR : ∀ a d, Q a d → R a d) : p.wpOk L O c R :=
  wp_mono h fun r d hr => by
    cases r with
    | ok a => exact hQR a d hr
    | error e => exact hr

@[simp] theorem wpOk_pure {a : α} {Q : α → Client D → Prop} :
    (pure a : Program D α).wpOk L O c Q ↔ Q a c := Iff.rfl

@[simp] theorem wpOk_throw {e : D.Error} {Q : α → Client D → Prop} :
    (throw e : Program D α).wpOk L O c Q ↔ c.committed = [] ∨ L e := Iff.rfl

theorem wpOk_bind {p : Program D α} {f : α → Program D β} {Q : β → Client D → Prop} :
    (p >>= f).wpOk L O c Q ↔ p.wpOk L O c fun a d => (f a).wpOk L O d Q := by
  refine wp_bind.trans ⟨fun h => wp_mono h ?_, fun h => wp_mono h ?_⟩ <;>
    rintro (e | a) d hr <;> exact hr

theorem wpOk_map {p : Program D α} {f : α → β} {Q : β → Client D → Prop} :
    (f <$> p).wpOk L O c Q ↔ p.wpOk L O c fun a d => Q (f a) d :=
  wpOk_bind (f := fun a => pure (f a))

theorem wpOk_runIf {b : Prop} [Decidable b] {p : Program D Unit} {Q : Unit → Client D → Prop} :
    (runIf b p).wpOk L O c Q ↔ (b → p.wpOk L O c Q) ∧ (¬ b → Q () c) := wp_runIf

/-- A handler that commits nothing sees the errors of the block it guards. -/
theorem wpOk_tryCatch {p : Program D α} {h : D.Error → Program D α} {Q : α → Client D → Prop}
    (hp : p.wpOk L O c Q)
    (hh : ∀ e d, d.committed = [] ∨ L e → (h e).wpOk L O d Q) : (tryCatch p h).wpOk L O c Q :=
  wp_tryCatch.mpr (wp_mono hp fun r d hr => by
    cases r with
    | ok a => exact hr
    | error e => exact hh e d hr)

/-- The usual handler: roll back and raise again. -/
theorem wpOk_rollback_throw {e : D.Error} {Q : α → Client D → Prop}
    (h : c.committed = [] ∨ L e) :
    (do rollbackAll; throw e : Program D α).wpOk L O c Q := wpOk_bind.mpr h

theorem wpOk_ofExcept {r : Except D.Error α} {Q : α → Client D → Prop}
    (hc : c.committed = []) (h : ∀ a, r = .ok a → Q a c) :
    (ofExcept r).wpOk L O c Q := by
  cases r with
  | ok a => exact h a rfl
  | error e => exact .inl hc

theorem wpOk_send {w : D.Write} {Q : D.Result w → Client D → Prop}
    (hc : c.committed = []) (h : ∀ r, Q r (c.wrote w)) :
    (send w).wpOk L O c Q :=
  wp_send (fun r => h r) fun _ => .inl hc

theorem wpOk_commitAll {ws : List D.Write} {Q : Unit → Client D → Prop}
    (hc : c.committed = []) (hO : O c (c.pending ++ ws)) (h : Q () (c.commit ws)) :
    (commitAll ws).wpOk L O c Q :=
  ⟨hO, h, fun _ => .inl hc⟩

theorem wpOk_refuseIf {b : Prop} [Decidable b] {e : D.Error} {Q : Unit → Client D → Prop}
    (hc : c.committed = []) (h : ¬ b → Q () c) :
    (refuseIf b e).wpOk L O c Q :=
  wp_refuseIf.mpr ⟨fun _ => .inl hc, h⟩

end Success

/-- After its only commit a program leaves the committed store alone. -/
theorem exec_after_commit {p : Program D α} {c : Client D} {σ : Session D}
    {Q : Except D.Error α → Client D → Prop} (h : p.wp (Once O) c Q)
    (hc : c.committed ≠ []) (hσ : D.applyAll c.pending σ.committed = .ok σ.working) :
    (p.exec σ).2.committed = σ.committed ∧
      ∃ d, Q (p.exec σ).1 d ∧ d.committed = c.committed := by
  induction p generalizing c σ with
  | done r => exact ⟨rfl, c, h, rfl⟩
  | query q k ih =>
    have hs := h σ.committed
    rw [Database.view_of_applyAll hσ] at hs
    exact ih _ (c := c.learn q _) hs hc hσ
  | execute w k ih =>
    have hs := h σ.committed
    rw [Database.view_of_applyAll hσ] at hs
    simp only [exec]
    split
    · rename_i r s heq
      rw [heq] at hs
      exact ih _ (c := c.wrote w) hs hc (Database.applyAll_snoc hσ heq)
    · rename_i e heq
      rw [heq] at hs
      exact ih _ (c := c.abort) hs hc rfl
  | commit ws k ih => exact absurd h.1.1 hc
  | rollback k ih => exact ih (c := c.abort) (σ := σ.discard) h hc rfl

/-- The solitary run of a program that commits at most once: either nothing is
committed, or one justified transaction is, on answers that are all current. -/
theorem exec_wp {p : Program D α} {c : Client D} {σ : Session D}
    {Q : Except D.Error α → Client D → Prop} (h : p.wp (Once O) c Q)
    (hc : c.committed = []) (hσ : D.applyAll c.pending σ.committed = .ok σ.working)
    (hlog : ∀ e ∈ c.log, e.Current σ.committed) :
    ∃ d, Q (p.exec σ).1 d ∧
      ((d.committed = [] ∧ (p.exec σ).2.committed = σ.committed) ∨
        ∃ b W, O b W ∧ (∀ e ∈ b.log, e.Current σ.committed) ∧ d.committed = [W] ∧
          D.applyAll W σ.committed = .ok (p.exec σ).2.committed) := by
  induction p generalizing c σ with
  | done r => exact ⟨c, h, .inl ⟨hc, rfl⟩⟩
  | query q k ih =>
    have hview := Database.view_of_applyAll hσ
    have hs := h σ.committed
    rw [hview] at hs
    refine ih _ (c := c.learn q _) hs hc hσ ?_
    intro e he
    rcases List.mem_cons.mp he with rfl | he
    · simp only [Entry.Current, hview]
    · exact hlog e he
  | execute w k ih =>
    have hs := h σ.committed
    rw [Database.view_of_applyAll hσ] at hs
    simp only [exec]
    split
    · rename_i r s heq
      rw [heq] at hs
      exact ih _ (c := c.wrote w) hs hc (Database.applyAll_snoc hσ heq) hlog
    · rename_i e heq
      rw [heq] at hs
      exact ih _ (c := c.abort) hs hc rfl hlog
  | commit ws k ih =>
    simp only [exec]
    split
    · rename_i s heq
      have hall : D.applyAll (c.pending ++ ws) σ.committed = .ok s := by
        rw [Database.applyAll_append, hσ]
        exact heq
      have hne : (c.commit ws).committed ≠ [] := by simp
      obtain ⟨hsame, d, hQ, hd⟩ := exec_after_commit (σ := .fresh s) h.2.1 hne rfl
      refine ⟨d, hQ, .inr ⟨c, c.pending ++ ws, h.1.2, hlog, ?_, ?_⟩⟩
      · rw [hd, Client.commit_committed, hc, List.nil_append]
      · rw [hall, hsame, Session.fresh_committed]
    · exact ih _ (c := c.abort) (σ := σ.discard) (h.2.2 _) hc rfl hlog
  | rollback k ih => exact ih (c := c.abort) (σ := σ.discard) h hc rfl hlog

end Program

end Transact
