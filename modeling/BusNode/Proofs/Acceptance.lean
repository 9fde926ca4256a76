import BusNode.Proofs.Success
/-!
# What a computation accepts

* `Decides` — a computation succeeds just under a condition, and fails only with errors of a kind;
* `Decides.bind`, `Decides.mapM`, `Decides.foldlM` — for one part after another, for the elements of a list in order,
  and for an accumulation over a list;
* `FailsOnly` — a computation fails only with errors of a kind, whenever it does.

The condition of a computation is so put together from those of its parts, and its errors are theirs.
-/

namespace BusNode

variable {ε ε' α β σ : Type}

theorem bind_eq_error {x : Except ε α} {f : α → Except ε β} {e : ε} :
    (x >>= f) = .error e ↔ x = .error e ∨ ∃ a, x = .ok a ∧ f a = .error e := by
  cases x with
  | error e' =>
    constructor
    · intro h
      cases h
      exact .inl rfl
    · rintro (h | ⟨a, h, -⟩)
      · cases h
        rfl
      · cases h
  | ok a =>
    constructor
    · exact fun h => .inr ⟨a, rfl, h⟩
    · rintro (h | ⟨a', h, hf⟩)
      · cases h
      · cases h
        exact hf

/-- The first element that is refused ends a computation for the elements of a list. -/
theorem mapM_eq_error {f : α → Except ε β} {l : List α} {e : ε} :
    l.mapM f = .error e ↔ ∃ before a after, l = before ++ a :: after ∧ (∀ b ∈ before, ∃ r, f b = .ok r) ∧
      f a = .error e := by
  induction l with
  | nil => simp [pure, Except.pure]
  | cons a l ih =>
    rw [List.mapM_cons, bind_eq_error]
    constructor
    · rintro (ha | ⟨b, hb, h⟩)
      · exact ⟨[], a, l, rfl, List.forall_mem_nil _, ha⟩
      · rcases bind_eq_error.1 h with h | ⟨bs, -, h⟩
        · obtain ⟨before, c, after, rfl, hbefore, hc⟩ := ih.1 h
          exact ⟨a :: before, c, after, rfl, List.forall_mem_cons.2 ⟨⟨b, hb⟩, hbefore⟩, hc⟩
        · cases h
    · rintro ⟨before, c, after, hsplit, hbefore, hc⟩
      cases before with
      | nil =>
        obtain ⟨rfl, -⟩ := List.cons.inj hsplit
        exact .inl hc
      | cons b before =>
        obtain ⟨rfl, rfl⟩ := List.cons.inj hsplit
        obtain ⟨⟨r, hr⟩, hbefore⟩ := List.forall_mem_cons.1 hbefore
        exact .inr ⟨r, hr, bind_eq_error.2 (.inl (ih.2 ⟨before, c, after, rfl, hbefore, hc⟩))⟩

/-- The computation succeeds just if `P` holds, and the errors that it fails with have `R`. -/
structure Decides (x : Except ε α) (P : Prop) (R : ε → Prop) : Prop where
  holds : ∀ a, x = .ok a → P
  refuses : ∀ e, x = .error e → ¬P ∧ R e

namespace Decides

variable {x : Except ε α} {P Q : Prop} {R S : ε → Prop}

theorem exists_ok_iff (h : Decides x P R) : (∃ a, x = .ok a) ↔ P := by
  constructor
  · rintro ⟨a, ha⟩
    exact h.holds a ha
  · intro hP
    cases hx : x with
    | ok a => exact ⟨a, rfl⟩
    | error e => exact absurd hP (h.refuses e hx).1

theorem exists_error_iff (h : Decides x P R) : (∃ e, x = .error e) ↔ ¬P := by
  constructor
  · rintro ⟨e, he⟩
    exact (h.refuses e he).1
  · intro hP
    cases hx : x with
    | ok a => exact absurd (h.holds a hx) hP
    | error e => exact ⟨e, rfl⟩

theorem ok (a : α) (h : P) : Decides (.ok a) P R := ⟨fun _ _ => h, fun _ he => nomatch he⟩

theorem error {e : ε} (h : ¬P) (hR : R e) : Decides (.error e : Except ε α) P R := by
  constructor
  · intro a ha
    cases ha
  · intro e' he
    cases he
    exact ⟨h, hR⟩

/-- What must be there. -/
theorem ofOption {o : Option α} {e : ε} (h : o = none → R e) : Decides (o.elim (.error e) .ok) (∃ a, o = some a) R := by
  cases o with
  | some a => exact ok a ⟨a, rfl⟩
  | none =>
    refine error ?_ (h rfl)
    rintro ⟨a, ha⟩
    cases ha

/-- What is refused unless it holds. -/
theorem ite_error [Decidable P] {a : α} {e : ε} (h : ¬P → R e) : Decides (if P then .ok a else .error e) P R := by
  split
  · exact ok a ‹P›
  · exact error ‹¬P› (h ‹¬P›)

/-- Another condition for the same. -/
theorem congr (h : Decides x P R) (hPQ : P ↔ Q) : Decides x Q R where
  holds a ha := hPQ.1 (h.holds a ha)
  refuses e he := ⟨fun hQ => (h.refuses e he).1 (hPQ.2 hQ), (h.refuses e he).2⟩

theorem mono (h : Decides x P R) (hRS : ∀ e, R e → S e) : Decides x P S where
  holds := h.holds
  refuses e he := ⟨(h.refuses e he).1, hRS e (h.refuses e he).2⟩

theorem mapError {f : ε → ε'} {S : ε' → Prop} (h : Decides x P R) (hRS : ∀ e, R e → S (f e)) :
    Decides (x.mapError f) P S := by
  cases hx : x with
  | ok a => exact .ok a (h.holds a hx)
  | error e => exact .error (h.refuses e hx).1 (hRS e (h.refuses e hx).2)

/-- One part after another: both conditions, the second one for what the first part comes to. -/
theorem bind {f : α → Except ε β} (hx : Decides x P R) (hf : ∀ a, x = .ok a → Decides (f a) Q R) :
    Decides (x >>= f) (P ∧ Q) R where
  holds b hb := by
    obtain ⟨a, ha, hb⟩ := bind_eq_ok.1 hb
    exact ⟨hx.holds a ha, (hf a ha).holds b hb⟩
  refuses e he := by
    rcases bind_eq_error.1 he with he | ⟨a, ha, he⟩
    · exact ⟨fun h => (hx.refuses e he).1 h.1, (hx.refuses e he).2⟩
    · exact ⟨fun h => ((hf a ha).refuses e he).1 h.2, ((hf a ha).refuses e he).2⟩

/-- One part after another, where what the first part comes to counts for the condition of the second. -/
theorem bind_exists {f : α → Except ε β} {Q : α → Prop} (hx : Decides x P R)
    (hf : ∀ a, x = .ok a → Decides (f a) (Q a) R) : Decides (x >>= f) (∃ a, x = .ok a ∧ Q a) R where
  holds b hb := by
    obtain ⟨a, ha, hb⟩ := bind_eq_ok.1 hb
    exact ⟨a, ha, (hf a ha).holds b hb⟩
  refuses e he := by
    rcases bind_eq_error.1 he with he | ⟨a, ha, he⟩
    · refine ⟨?_, (hx.refuses e he).2⟩
      rintro ⟨a, ha, -⟩
      cases he.symm.trans ha
    · refine ⟨?_, ((hf a ha).refuses e he).2⟩
      rintro ⟨a', ha', h⟩
      cases ha.symm.trans ha'
      exact ((hf a ha).refuses e he).1 h

/-- A part after which nothing fails. -/
theorem bind_pure (h : Decides x P R) (f : α → β) : Decides (x >>= fun a => pure (f a)) P R :=
  (h.bind fun _ _ => ok _ trivial).congr (iff_of_eq (and_true P))

/-- A part that is left out unless it is asked for. -/
theorem ite_ok {c : Bool} {a : α} (h : c = true → Decides x P R) :
    Decides (if c then x else .ok a) (c = true → P) R := by
  cases c with
  | true => exact (h rfl).congr ⟨fun hP _ => hP, fun hP => hP rfl⟩
  | false => exact ok a fun hc => nomatch hc

/-- A part that is left out unless it is asked for, before others. -/
theorem ite_bind {c : Bool} {f : α → Except ε β} {y : Except ε β} (hx : c = true → Decides x P R)
    (hf : ∀ a, Decides (f a) Q R) (hy : Decides y Q R) :
    Decides (if c then x >>= f else y) ((c = true → P) ∧ Q) R := by
  cases c with
  | true => exact ((hx rfl).bind fun a _ => hf a).congr (and_congr_left fun _ => ⟨fun hP _ => hP, fun hP => hP rfl⟩)
  | false => exact hy.congr (and_iff_right fun hc => nomatch hc).symm

/-- The elements of a list in order. -/
theorem mapM {f : α → Except ε β} {l : List α} {P : α → Prop} (h : ∀ a ∈ l, Decides (f a) (P a) R) :
    Decides (l.mapM f) (∀ a ∈ l, P a) R := by
  -- the first element that is refused ends the computation, whatever comes after it
  induction l with
  | nil => exact .ok [] fun _ ha => nomatch ha
  | cons a l ih =>
    rw [List.mapM_cons]
    refine (bind (h a List.mem_cons_self) fun b _ =>
      bind_pure (ih fun c hc => h c (List.mem_cons_of_mem _ hc)) (b :: ·)).congr ?_
    rw [List.forall_mem_cons]

/-- An accumulation whose steps do not fail for what is there so far. -/
theorem foldlM {f : σ → α → Except ε σ} {l : List α} {P : α → Prop} (h : ∀ s, ∀ a ∈ l, Decides (f s a) (P a) R)
    (s : σ) : Decides (l.foldlM f s) (∀ a ∈ l, P a) R := by
  induction l generalizing s with
  | nil => exact .ok s fun _ ha => nomatch ha
  | cons a l ih =>
    rw [List.foldlM_cons]
    refine (bind (h s a List.mem_cons_self) fun t _ =>
      ih (fun t c hc => h t c (List.mem_cons_of_mem _ hc)) t).congr ?_
    rw [List.forall_mem_cons]

end Decides

/-- The computation fails with no error but those that have `R`. -/
def FailsOnly (x : Except ε α) (R : ε → Prop) : Prop := ∀ e, x = .error e → R e

namespace FailsOnly

variable {x : Except ε α} {R : ε → Prop}

theorem of_decides {P : Prop} {S : ε → Prop} (h : Decides x P S) (hSR : ∀ e, S e → R e) : FailsOnly x R :=
  fun e he => hSR e (h.refuses e he).2

theorem ok (a : α) : FailsOnly (.ok a) R := fun _ he => nomatch he

theorem error {e : ε} (h : R e) : FailsOnly (.error e : Except ε α) R := by
  intro e' he
  cases he
  exact h

theorem mapError {f : ε → ε'} {S : ε' → Prop} (h : FailsOnly x R) (hRS : ∀ e, R e → S (f e)) :
    FailsOnly (x.mapError f) S := by
  cases hx : x with
  | ok a => exact .ok a
  | error e => exact .error (hRS e (h e hx))

theorem bind {f : α → Except ε β} (hx : FailsOnly x R) (hf : ∀ a, x = .ok a → FailsOnly (f a) R) :
    FailsOnly (x >>= f) R := by
  intro e he
  rcases bind_eq_error.1 he with he | ⟨a, ha, he⟩
  · exact hx e he
  · exact hf a ha e he

theorem mapM {f : α → Except ε β} {l : List α} (h : ∀ a ∈ l, FailsOnly (f a) R) : FailsOnly (l.mapM f) R := by
  intro e he
  obtain ⟨before, a, after, rfl, -, ha⟩ := mapM_eq_error.1 he
  exact h a (List.mem_append_right _ List.mem_cons_self) e ha

end FailsOnly

end BusNode
