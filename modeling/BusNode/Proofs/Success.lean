import BusNode.Report
import Mathlib.Data.List.Forall2
/-!
# When a computation succeeds

A result `.ok` of a computation in parts, read back to the results of its parts.

* `bind_eq_ok`, `mapM_eq_ok`, `mapM_eq_some`, `foldlM_eq_ok_induction` — for one part after another, for the elements
  of a list in order, and for an accumulation over a list;
* `Agree` — two computations fail alike, or come to related results;
* `Report.result_forM_tell` and its kin — the result of a report does not depend on its events.
-/

namespace BusNode

variable {ε ε' α β γ δ σ : Type}

/-! ## Failures and successes -/

theorem bind_eq_ok {x : Except ε α} {f : α → Except ε β} {b : β} :
    (x >>= f) = .ok b ↔ ∃ a, x = .ok a ∧ f a = .ok b := by
  cases x with
  | error e =>
    constructor
    · intro h
      cases h
    · rintro ⟨a, h, -⟩
      cases h
  | ok a =>
    constructor
    · exact fun h => ⟨a, rfl, h⟩
    · rintro ⟨a', h, hf⟩
      cases h
      exact hf

theorem pure_eq_ok {a b : α} : (pure a : Except ε α) = .ok b ↔ a = b := by
  show Except.ok a = Except.ok b ↔ a = b
  exact Except.ok.injEq a b ▸ Iff.rfl

theorem mapError_eq_ok {x : Except ε α} {f : ε → ε'} {a : α} : x.mapError f = .ok a ↔ x = .ok a := by
  cases x <;> simp [Except.mapError]

/-- A part whose errors are told otherwise. -/
theorem mapError_bind_eq_ok {x : Except ε α} {g : ε → ε'} {f : α → Except ε' β} {b : β} :
    (x.mapError g >>= f) = .ok b ↔ ∃ a, x = .ok a ∧ f a = .ok b := by
  simp only [bind_eq_ok, mapError_eq_ok]

theorem map_eq_error {x : Except ε α} {f : α → β} {e : ε} : x.map f = .error e ↔ x = .error e := by
  cases x <;> simp [Except.map]

theorem exists_eq_ok {x : Except ε α} (h : x.toBool = true) : ∃ a, x = .ok a := by
  cases x with
  | error e => cases h
  | ok a => exact ⟨a, rfl⟩

theorem exists_eq_ok_of_any {x : Except ε α} {p : α → Prop} [DecidablePred p] (h : x.toOption.any (p ·) = true) :
    ∃ a, x = .ok a ∧ p a := by
  cases x with
  | error e => cases h
  | ok a => exact ⟨a, rfl, of_decide_eq_true h⟩

/-- Element by element, in order. -/
theorem mapM_eq_ok {f : α → Except ε β} {l : List α} {r : List β} :
    l.mapM f = .ok r ↔ List.Forall₂ (fun a b => f a = .ok b) l r := by
  induction l generalizing r with
  | nil =>
    rw [List.mapM_nil, pure_eq_ok, List.forall₂_nil_left_iff]
    exact eq_comm
  | cons a l ih =>
    rw [List.mapM_cons, bind_eq_ok, List.forall₂_cons_left_iff]
    constructor
    · rintro ⟨b, hb, h⟩
      obtain ⟨s, hs, h⟩ := bind_eq_ok.1 h
      exact ⟨b, s, hb, ih.1 hs, (pure_eq_ok.1 h).symm⟩
    · rintro ⟨b, s, hb, hs, rfl⟩
      exact ⟨b, hb, bind_eq_ok.2 ⟨s, ih.2 hs, rfl⟩⟩

/-- Element by element, in order, where what does not succeed has no reason. -/
theorem mapM_eq_some {f : α → Option β} {l : List α} {r : List β} :
    l.mapM f = some r ↔ List.Forall₂ (fun a b => f a = some b) l r := by
  induction l generalizing r with
  | nil =>
    rw [List.mapM_nil, List.forall₂_nil_left_iff]
    exact ⟨fun h => (Option.some.inj h).symm, fun h => congrArg some h.symm⟩
  | cons a l ih =>
    rw [List.mapM_cons, List.forall₂_cons_left_iff]
    constructor
    · intro h
      obtain ⟨b, hb, h⟩ := Option.bind_eq_some_iff.1 h
      obtain ⟨s, hs, h⟩ := Option.bind_eq_some_iff.1 h
      exact ⟨b, s, hb, ih.1 hs, (Option.some.inj h).symm⟩
    · rintro ⟨b, s, hb, hs, rfl⟩
      exact Option.bind_eq_some_iff.2 ⟨b, hb, Option.bind_eq_some_iff.2 ⟨s, ih.2 hs, rfl⟩⟩

/-- What succeeds for the elements of a list succeeds alike for what they are taken to. -/
theorem mapM_map_eq_ok {α' : Type} {f : α → Except ε β} {g : α' → Except ε β} {φ : α → α'}
    (h : ∀ a b, f a = .ok b → g (φ a) = .ok b) {l : List α} {r : List β} (hl : l.mapM f = .ok r) :
    (l.map φ).mapM g = .ok r := by
  rw [mapM_eq_ok] at hl ⊢
  rw [List.forall₂_map_left_iff]
  exact hl.imp h

/-- What an accumulation has at first, and every step keeps for the elements so far, it has for all elements. -/
theorem foldlM_eq_ok_induction {f : σ → α → Except ε σ} (P : List α → σ → Prop) {l : List α} {s t : σ}
    (h : l.foldlM f s = .ok t) (start : P [] s)
    (step : ∀ done, ∀ a ∈ l, ∀ u v, P done u → f u a = .ok v → P (done ++ [a]) v) : P l t := by
  suffices H : ∀ rest done s, rest ⊆ l → P done s → rest.foldlM f s = .ok t → P (done ++ rest) t from
    H l [] s (List.Subset.refl l) start h
  intro rest
  induction rest with
  | nil =>
    intro done s _ hs hf
    rw [List.foldlM_nil, pure_eq_ok] at hf
    rw [List.append_nil]
    exact hf ▸ hs
  | cons a rest ih =>
    intro done s hsub hs hf
    rw [List.foldlM_cons, bind_eq_ok] at hf
    obtain ⟨u, hu, hf⟩ := hf
    obtain ⟨ha, hsub⟩ := List.cons_subset.1 hsub
    have := ih (done ++ [a]) u hsub (step done a ha s u hs hu) hf
    rwa [List.append_assoc] at this

/-! ## Lists related element by element -/

theorem exists_of_mem_left {R : α → β → Prop} {l : List α} {r : List β} (h : List.Forall₂ R l r) {a : α}
    (ha : a ∈ l) : ∃ b ∈ r, R a b := by
  induction h with
  | nil => cases ha
  | cons hab _ ih =>
    rcases List.mem_cons.1 ha with rfl | ha
    · exact ⟨_, List.mem_cons_self, hab⟩
    · obtain ⟨b, hb, hR⟩ := ih ha
      exact ⟨b, List.mem_cons_of_mem _ hb, hR⟩

theorem exists_of_mem_right {R : α → β → Prop} {l : List α} {r : List β} (h : List.Forall₂ R l r) {b : β}
    (hb : b ∈ r) : ∃ a ∈ l, R a b :=
  exists_of_mem_left h.flip hb

/-- The part before an element of the left list has its own counterpart, and so has the part after it. -/
theorem forall₂_split {R : α → β → Prop} {l₁ l₂ : List α} {a : α} {r : List β}
    (h : List.Forall₂ R (l₁ ++ a :: l₂) r) :
    ∃ r₁ b r₂, r = r₁ ++ b :: r₂ ∧ List.Forall₂ R l₁ r₁ ∧ R a b ∧ List.Forall₂ R l₂ r₂ := by
  induction l₁ generalizing r with
  | nil =>
    obtain ⟨b, r₂, hb, h₂, rfl⟩ := List.forall₂_cons_left_iff.1 h
    exact ⟨[], b, r₂, rfl, .nil, hb, h₂⟩
  | cons c l₁ ih =>
    obtain ⟨d, s, hd, hs, rfl⟩ := List.forall₂_cons_left_iff.1 h
    obtain ⟨r₁, b, r₂, rfl, h₁, hb, h₂⟩ := ih hs
    exact ⟨d :: r₁, b, r₂, rfl, .cons hd h₁, hb, h₂⟩

/-- What takes related elements to the same takes the lists to the same. -/
theorem map_eq_of_forall₂ {R : α → β → Prop} {f : α → γ} {g : β → γ} {l : List α} {r : List β}
    (h : List.Forall₂ R l r) (hsame : ∀ a b, R a b → f a = g b) : l.map f = r.map g := by
  rw [← List.forall₂_eq_eq_eq, List.forall₂_map_left_iff, List.forall₂_map_right_iff]
  exact h.imp hsame

theorem mapM_eq_of_forall₂ {m : Type → Type} [Monad m] [LawfulMonad m] {R : α → β → Prop} {f : α → m γ} {g : β → m γ}
    {l : List α} {r : List β} (h : List.Forall₂ R l r) (hsame : ∀ a b, R a b → f a = g b) : l.mapM f = r.mapM g := by
  induction h with
  | nil => rfl
  | cons hab _ ih => rw [List.mapM_cons, List.mapM_cons, hsame _ _ hab, ih]

theorem mapM_congr {m : Type → Type} [Monad m] [LawfulMonad m] {f g : α → m β} {l : List α}
    (h : ∀ a ∈ l, f a = g a) : l.mapM f = l.mapM g := by
  induction l with
  | nil => rfl
  | cons a l ih =>
    rw [List.mapM_cons, List.mapM_cons, h a List.mem_cons_self, ih fun b hb => h b (List.mem_cons_of_mem _ hb)]

/-- What is found first is the same where all that may be found is. -/
theorem find?_eq_of_forall₂ {R : α → α → Prop} {p : α → Bool} {l r : List α} (h : List.Forall₂ R l r)
    (hsame : ∀ a b, R a b → p a = p b) (hfound : ∀ a b, R a b → p a = true → a = b) : l.find? p = r.find? p := by
  induction h with
  | nil => rfl
  | @cons a b l r hab _ ih =>
    rw [List.find?_cons, List.find?_cons, ← hsame a b hab]
    cases hp : p a with
    | true => rw [hfound a b hab hp]
    | false => exact ih

theorem forall₂_zipIdx {R : α → β → Prop} {l : List α} {r : List β} (h : List.Forall₂ R l r) (k : Nat) :
    List.Forall₂ (fun a b => R a.1 b.1 ∧ a.2 = b.2) (l.zipIdx k) (r.zipIdx k) := by
  induction h generalizing k with
  | nil => exact .nil
  | cons hab _ ih => exact .cons ⟨hab, rfl⟩ (ih (k + 1))

theorem rel_getElem? {R : α → β → Prop} {l : List α} {r : List β} (h : List.Forall₂ R l r) (k : Nat) :
    Option.Rel R l[k]? r[k]? := by
  induction h generalizing k with
  | nil => exact .none
  | cons hab _ ih =>
    cases k with
    | zero => exact .some hab
    | succ k => exact ih k

/-- Where what is related is told apart alike on both sides, neither side has anything twice or both have. -/
theorem nodup_map_iff_of_forall₂ {R : α → β → Prop} {f : α → γ} {g : β → δ} {l : List α} {r : List β}
    (h : List.Forall₂ R l r) (hsame : ∀ a a' b b', R a b → R a' b' → (f a = f a' ↔ g b = g b')) :
    (l.map f).Nodup ↔ (r.map g).Nodup := by
  induction h with
  | nil => exact iff_of_true .nil .nil
  | @cons a b l r hab h ih =>
    have hmem : f a ∈ l.map f ↔ g b ∈ r.map g := by
      constructor
      · intro ha
        obtain ⟨a', ha', hf⟩ := List.mem_map.1 ha
        obtain ⟨b', hb', hR⟩ := exists_of_mem_left h ha'
        exact List.mem_map.2 ⟨b', hb', (hsame a' a b' b hR hab).1 hf⟩
      · intro hb
        obtain ⟨b', hb', hg⟩ := List.mem_map.1 hb
        obtain ⟨a', ha', hR⟩ := exists_of_mem_right h hb'
        exact List.mem_map.2 ⟨a', ha', (hsame a' a b' b hR hab).2 hg⟩
    rw [List.map_cons, List.map_cons, List.nodup_cons, List.nodup_cons, hmem, ih]

/-! ## Computations that agree -/

/-- Two computations fail alike, or come to related results. -/
inductive Agree (R : α → β → Prop) : Except ε α → Except ε β → Prop
  | error (e : ε) : Agree R (.error e) (.error e)
  | ok {a : α} {b : β} : R a b → Agree R (.ok a) (.ok b)

namespace Agree

variable {R : α → β → Prop} {S : γ → δ → Prop}

theorem bind {x : Except ε α} {y : Except ε β} {f : α → Except ε γ} {g : β → Except ε δ} (h : Agree R x y)
    (hfg : ∀ a b, R a b → Agree S (f a) (g b)) : Agree S (x >>= f) (y >>= g) := by
  cases h with
  | error e => exact .error e
  | ok hab => exact hfg _ _ hab

theorem refl (x : Except ε α) : Agree Eq x x := by
  cases x with
  | error e => exact .error e
  | ok a => exact .ok rfl

theorem eq {x y : Except ε α} (h : Agree Eq x y) : x = y := by
  cases h with
  | error e => rfl
  | ok hab => rw [hab]

theorem mapM {f : α → Except ε γ} {g : β → Except ε δ} {l : List α} {r : List β} (h : List.Forall₂ R l r)
    (hfg : ∀ a b, R a b → Agree S (f a) (g b)) : Agree (List.Forall₂ S) (l.mapM f) (r.mapM g) := by
  induction h with
  | nil => exact .ok .nil
  | @cons a b l r hab _ ih =>
    rw [List.mapM_cons, List.mapM_cons]
    exact (hfg a b hab).bind fun c d hcd => ih.bind fun cs ds hcds => .ok (.cons hcd hcds)

/-- Two accumulations over one list, whose steps agree whenever what is there so far is related. -/
theorem foldlM {τ : Type} {f : σ → α → Except ε σ} {g : τ → α → Except ε τ} (R : List α → σ → τ → Prop) {l : List α}
    {s : σ} {t : τ} (start : R [] s t)
    (step : ∀ done, ∀ a ∈ l, ∀ s t, R done s t → Agree (R (done ++ [a])) (f s a) (g t a)) :
    Agree (R l) (l.foldlM f s) (l.foldlM g t) := by
  suffices H : ∀ rest done s t, rest ⊆ l → R done s t → Agree (R (done ++ rest)) (rest.foldlM f s) (rest.foldlM g t) from
    H l [] s t (List.Subset.refl l) start
  intro rest
  induction rest with
  | nil =>
    intro done s t _ h
    rw [List.append_nil]
    exact .ok h
  | cons a rest ih =>
    intro done s t hsub h
    obtain ⟨ha, hsub⟩ := List.cons_subset.1 hsub
    rw [List.foldlM_cons, List.foldlM_cons]
    refine (step done a ha s t h).bind fun s' t' h' => ?_
    have := ih (done ++ [a]) s' t' hsub h'
    rwa [List.append_assoc] at this

theorem exists_ok_iff {x : Except ε α} {y : Except ε β} (h : Agree R x y) : (∃ a, x = .ok a) ↔ ∃ b, y = .ok b := by
  cases h with
  | error e => exact iff_of_false (by simp) (by simp)
  | ok _ => exact iff_of_true ⟨_, rfl⟩ ⟨_, rfl⟩

theorem error_iff {x : Except ε α} {y : Except ε β} (h : Agree R x y) {e : ε} : x = .error e ↔ y = .error e := by
  cases h with
  | error e' => simp
  | ok _ => exact iff_of_false (by simp) (by simp)

end Agree

/-! ## Reports -/

namespace Report

@[simp] theorem result_tell (e : Event) : (tell e : Report ε Unit).result = .ok () := rfl

@[simp] theorem result_fail (e : ε) : (fail e : Report ε α).result = .error e := rfl

instance : LawfulMonad (Report ε) := by
  refine LawfulMonad.mk' (Report ε) ?_ ?_ ?_
  · rintro α ⟨events, e | a⟩
    · rfl
    · show (⟨events ++ [], .ok a⟩ : Report ε α) = _
      rw [List.append_nil]
  · intros
    rfl
  · rintro α β γ ⟨events, e | a⟩ f g
    · rfl
    · show Report.bind ⟨events ++ (f a).events, (f a).result⟩ g =
        ⟨events ++ (Report.bind (f a) g).events, (Report.bind (f a) g).result⟩
      unfold Report.bind
      cases (f a).result with
      | error e => rfl
      | ok b => simp only [List.append_assoc]

theorem lift_eq_ok {x : Report ExportError α} {a : α} : x.lift.result = .ok a ↔ x.result = .ok a := mapError_eq_ok

/-- The results for the elements of a list, in order. -/
theorem result_mapM (f : β → Report ε α) (l : List β) : (l.mapM f).result = l.mapM fun b => (f b).result := by
  induction l with
  | nil => rfl
  | cons b l ih =>
    rw [List.mapM_cons, List.mapM_cons]
    simp only [result_bind, result_pure, ih]
    rfl

/-- Events do not count for the result. -/
@[simp] theorem result_forM_tell (es : List Event) : (es.forM tell : Report ε Unit).result = .ok () := by
  induction es with
  | nil => rfl
  | cons e es ih =>
    show (tell e >>= fun _ => es.forM tell : Report ε Unit).result = _
    rw [result_bind]
    exact ih

end Report

end BusNode
