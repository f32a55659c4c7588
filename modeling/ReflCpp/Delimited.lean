import Mathlib.Data.List.Infix
import Mathlib.Data.Set.Operations

/-! Words that can be read back: what is written for a value is told from whatever follows
it, so that values written one after the other can all be recovered. -/

universe u v w x

namespace ReflCpp.Delimited

variable {α : Type u} {β : Type v} {γ : Type w} {δ : Type x}

/-- A word that begins with `f b` for a `b` in `s` determines `key b`, and what follows. -/
def Reads (s : Set β) (f : β → List α) (key : β → γ) : Prop :=
  ∀ b ∈ s, ∀ c ∈ s, ∀ r r', f b ++ r = f c ++ r' → key b = key c ∧ r = r'

variable {s : Set β} {t : Set δ} {f g : β → List α} {k : β → γ} {l : β → δ}

theorem reads_const (word : List α) : Reads s (fun _ => word) (fun _ => ()) :=
  fun _ _ _ _ _ _ h => ⟨rfl, List.append_cancel_left h⟩

theorem Reads.key (h : Reads s f k) (hl : ∀ b ∈ s, ∀ c ∈ s, k b = k c → l b = l c) :
    Reads s f l := by
  intro b hb c hc r r' heq
  obtain ⟨hk, hr⟩ := h b hb c hc r r' heq
  exact ⟨hl b hb c hc hk, hr⟩

theorem Reads.append (hf : Reads s f k) (hg : Reads s g l) :
    Reads s (fun b => f b ++ g b) (fun b => (k b, l b)) := by
  intro b hb c hc r r' heq
  rw [List.append_assoc, List.append_assoc] at heq
  obtain ⟨hk, hrest⟩ := hf b hb c hc _ _ heq
  obtain ⟨hl, hr⟩ := hg b hb c hc r r' hrest
  exact ⟨Prod.ext hk hl, hr⟩

theorem Reads.comp (h : Reads s f k) {e : δ → β} (he : ∀ d ∈ t, e d ∈ s) :
    Reads t (fun d => f (e d)) (fun d => k (e d)) :=
  fun b hb c hc => h (e b) (he b hb) (e c) (he c hc)

theorem append_cons_inj {d : α} {p q r r' : List α} (hp : d ∉ p) (hq : d ∉ q)
    (h : p ++ d :: r = q ++ d :: r') : p = q ∧ r = r' := by
  induction p generalizing q with
  | nil =>
    cases q with
    | nil => exact ⟨rfl, List.tail_eq_of_cons_eq h⟩
    | cons c q => exact absurd (List.head_eq_of_cons_eq h) (List.ne_of_not_mem_cons hq)
  | cons b p ih =>
    cases q with
    | nil => exact absurd (List.head_eq_of_cons_eq h).symm (List.ne_of_not_mem_cons hp)
    | cons c q =>
      obtain ⟨rfl, htail⟩ := List.cons.inj h
      obtain ⟨rfl, hr⟩ := ih (List.not_mem_of_not_mem_cons hp) (List.not_mem_of_not_mem_cons hq)
        htail
      exact ⟨rfl, hr⟩

/-- A word without `d` ends where the first `d` is. -/
theorem reads_until {d : α} (h : ∀ b ∈ s, d ∉ f b) : Reads s (fun b => f b ++ [d]) f := by
  intro b hb c hc r r' heq
  rw [List.append_assoc, List.append_assoc] at heq
  exact append_cons_inj (h b hb) (h c hc) heq

/-- Words of which neither begins with the other stay different, whatever follows. -/
theorem append_ne {p q : List α} (hp : ¬ p <+: q) (hq : ¬ q <+: p) (r r' : List α) :
    p ++ r ≠ q ++ r' := by
  intro heq
  have hword : q <+: p ++ r := heq ▸ List.prefix_append q r'
  rcases List.prefix_or_prefix_of_prefix (List.prefix_append p r) hword with h | h
  · exact hp h
  · exact hq h

/-- The end of a list is told from another value of it. -/
theorem Reads.flatMap (h : Reads s f k) {stop : List α}
    (hstop : ∀ b ∈ s, ∀ r r', f b ++ r ≠ stop ++ r') :
    Reads {bs : List β | ∀ b ∈ bs, b ∈ s} (fun bs => bs.flatMap f ++ stop) (List.map k) := by
  intro bs
  induction bs with
  | nil =>
    intro _ cs hcs r r' heq
    cases cs with
    | nil => exact ⟨rfl, List.append_cancel_left heq⟩
    | cons c cs =>
      dsimp only at heq
      rw [List.flatMap_nil, List.nil_append, List.flatMap_cons, List.append_assoc,
        List.append_assoc] at heq
      exact absurd heq.symm (hstop c (hcs c List.mem_cons_self) _ _)
  | cons b bs ih =>
    intro hbs cs hcs r r' heq
    have hb := hbs b List.mem_cons_self
    cases cs with
    | nil =>
      dsimp only at heq
      rw [List.flatMap_nil, List.nil_append, List.flatMap_cons, List.append_assoc,
        List.append_assoc] at heq
      exact absurd heq (hstop b hb _ _)
    | cons c cs =>
      dsimp only at heq
      rw [List.flatMap_cons, List.flatMap_cons, List.append_assoc, List.append_assoc,
        List.append_assoc, List.append_assoc, ← List.append_assoc (bs.flatMap f),
        ← List.append_assoc (cs.flatMap f)] at heq
      obtain ⟨hk, hrest⟩ := h b hb c (hcs c List.mem_cons_self) _ _ heq
      obtain ⟨hks, hr⟩ := ih (fun d hd => hbs d (List.mem_cons_of_mem _ hd)) cs
        (fun d hd => hcs d (List.mem_cons_of_mem _ hd)) r r' hrest
      exact ⟨by rw [List.map_cons, List.map_cons, hk, hks], hr⟩

/-- At the end of the word no value is written, so none needs to be told from it. -/
theorem Reads.flatMap_end (h : Reads s f k) (hne : ∀ b ∈ s, f b ≠ []) {bs cs : List β}
    (hbs : ∀ b ∈ bs, b ∈ s) (hcs : ∀ c ∈ cs, c ∈ s) (heq : bs.flatMap f = cs.flatMap f) :
    bs.map k = cs.map k := by
  induction bs generalizing cs with
  | nil =>
    cases cs with
    | nil => rfl
    | cons c cs =>
      rw [List.flatMap_nil, List.flatMap_cons, eq_comm, List.append_eq_nil_iff] at heq
      exact absurd heq.1 (hne c (hcs c List.mem_cons_self))
  | cons b bs ih =>
    have hb := hbs b List.mem_cons_self
    cases cs with
    | nil =>
      rw [List.flatMap_nil, List.flatMap_cons, List.append_eq_nil_iff] at heq
      exact absurd heq.1 (hne b hb)
    | cons c cs =>
      rw [List.flatMap_cons, List.flatMap_cons] at heq
      obtain ⟨hk, hrest⟩ := h b hb c (hcs c List.mem_cons_self) _ _ heq
      rw [List.map_cons, List.map_cons, hk,
        ih (fun d hd => hbs d (List.mem_cons_of_mem _ hd))
          (fun d hd => hcs d (List.mem_cons_of_mem _ hd)) hrest]

end ReflCpp.Delimited
