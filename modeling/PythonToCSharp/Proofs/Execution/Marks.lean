import PythonToCSharp.Proofs.Execution.Emission

/-!
What the lines of a block do to truth values. They change none but their own and the mark of the
loop around them. The mark is only ever cleared; a `break` out of the loop clears it. Where no
exception can take the place of a `break`, nothing else does.

`Clear` is what is asked of the truth values before the lines run, `Keeps` what is known of them
afterwards.
-/

namespace PythonToCSharp.Lowering

open CSharp (Flags)
open Body (Inside)

/-- What becomes of the truth values when lines run that own some of them, under the mark of the
loop around. `steady` says that a `break` is never overtaken. -/
structure Keeps {Fault : Type} (steady : Prop) (own : String → Prop) (mark : Option String)
    (before : Flags) (outcome : Outcome Fault) (after : Flags) : Prop where
  others : ∀ x, ¬own x → mark ≠ some x → after x = before x
  broken : ∀ x, mark = some x → outcome = .broke → after x = some false
  cleared : ∀ x, mark = some x → before x = some false → after x = some false
  marked : steady → ∀ x, mark = some x → outcome ≠ .broke → after x = before x
  known : ∀ x, (before x).isSome = true → (after x).isSome = true

namespace Keeps

variable {Fault : Type} {steady : Prop} {own inner : String → Prop} {mark : Option String}
  {f f₁ f₂ : Flags} {o o₁ : Outcome Fault}

theorem refl (h : o ≠ .broke) : Keeps steady own mark f o f :=
  ⟨fun _ _ _ => rfl, fun _ _ ho => absurd ho h, fun _ _ hx => hx, fun _ _ _ _ => rfl,
    fun _ hx => hx⟩

/-- Without a mark a `break` changes nothing either. -/
theorem refl_unmarked : Keeps steady own none f o f :=
  ⟨fun _ _ _ => rfl, nofun, fun _ _ hx => hx, fun _ _ _ _ => rfl, fun _ hx => hx⟩

/-- Lines, and lines behind them that the first do not leave by `break`. -/
theorem trans (h : Keeps steady own mark f o₁ f₁) (hb : steady → o₁ ≠ .broke)
    (h' : Keeps steady own mark f₁ o f₂) : Keeps steady own mark f o f₂ where
  others x hx hm := (h'.others x hx hm).trans (h.others x hx hm)
  broken := h'.broken
  cleared x hx hf := h'.cleared x hx (h.cleared x hx hf)
  marked hs x hx ho := (h'.marked hs x hx ho).trans (h.marked hs x hx (hb hs))
  known x hx := h'.known x (h.known x hx)

/-- What ended so, and a cleanup behind it. -/
theorem followed (hs : ¬steady) (h : Keeps steady own mark f o f₁)
    (h' : Keeps steady own mark f₁ o₁ f₂) : Keeps steady own mark f (o.followed o₁) f₂ := by
  cases o₁ with
  | normal =>
    -- the cleanup cannot bring back a mark that was cleared
    refine ⟨fun x hx hm => (h'.others x hx hm).trans (h.others x hx hm), ?_,
      fun x hx hf => h'.cleared x hx (h.cleared x hx hf), fun steady => absurd steady hs,
      fun x hx => h'.known x (h.known x hx)⟩
    intro x hx ho
    exact h'.cleared x hx (h.broken x hx ho)
  | _ => exact h.trans (fun steady => absurd steady hs) h'

theorem widen (h : Keeps steady inner mark f o f₁) (hi : ∀ x, inner x → own x) :
    Keeps steady own mark f o f₁ where
  others x hx := h.others x fun hin => hx (hi x hin)
  broken := h.broken
  cleared := h.cleared
  marked := h.marked
  known := h.known

/-- A truth value of its own is set. -/
theorem set {name : String} (hn : own name) (hm : mark ≠ some name) (value : Bool)
    (ho : o ≠ .broke) : Keeps steady own mark f o (f.set name value) := by
  have hmark : ∀ x, mark = some x → f.set name value x = f x := by
    intro x hx
    refine f.set_ne ?_ value
    rintro rfl
    exact hm hx
  refine ⟨?_, fun _ _ heq => absurd heq ho, ?_, fun _ x hx _ => hmark x hx,
    fun x => f.isSome_set value⟩
  · intro x hx _
    refine f.set_ne ?_ value
    rintro rfl
    exact hx hn
  · intro x hx hf
    rw [hmark x hx]
    exact hf

/-- The mark is cleared on the way out. -/
theorem clear (name : String) (ho : steady → o = .broke) :
    Keeps steady own (some name) f o (f.set name false) where
  others x _ hm := by
    refine f.set_ne ?_ false
    rintro rfl
    exact hm rfl
  broken x hx _ := by
    cases hx
    exact f.set_self name false
  cleared x hx _ := by
    cases hx
    exact f.set_self name false
  marked hs _ _ hne := absurd (ho hs) hne
  known x := f.isSome_set false

end Keeps

/-- What is asked of the truth values before lines run. -/
structure Body.Clear (S : Body) (own : String → Prop) (mark : Option String)
    (f : Flags) : Prop where
  own_hidden : ∀ x, own x → S.Hidden x
  mark_own : ∀ x, mark = some x → ¬own x
  /-- Nothing that the source sees is declared as a truth value. -/
  hidden : ∀ x, (f x).isSome = true → S.Hidden x
  declared : ∀ x ∈ S.flags, (f x).isSome = true
  marked : ∀ x, mark = some x → (f x).isSome = true

namespace Body.Clear

variable {S : Body} {Fault : Type} {steady : Prop} {own inner : String → Prop}
  {mark : Option String} {f f₁ : Flags} {o : Outcome Fault} {name : String}

/-- At the start of a body nothing is declared but the flags of its frame. -/
theorem start (hown : ∀ x, own x → S.Hidden x) (hflags : ∀ flag ∈ S.flags, S.Hidden flag)
    (hd : ∀ x, (f x).isSome = true ↔ x ∈ S.flags) : S.Clear own none f :=
  ⟨hown, nofun, fun x hx => hflags x ((hd x).1 hx), fun x hx => (hd x).2 hx, nofun⟩

/-- Variables of the source are no truth values. -/
theorem user (h : S.Clear own mark f) {x : String} (hx : S.User x) : f x = none := by
  by_contra hne
  exact (h.hidden x (Option.isSome_iff_ne_none.2 hne)).2 hx

theorem keeps (h : S.Clear own mark f) (hk : Keeps steady own mark f o f₁) :
    S.Clear own mark f₁ where
  own_hidden := h.own_hidden
  mark_own := h.mark_own
  hidden x hx := by
    by_cases hown : own x
    · exact h.own_hidden x hown
    · by_cases hmark : mark = some x
      · exact h.hidden x (h.marked x hmark)
      · rw [hk.others x hown hmark] at hx
        exact h.hidden x hx
  declared x hx := hk.known x (h.declared x hx)
  marked x hx := hk.known x (h.marked x hx)

theorem unmarked (h : S.Clear own mark f) : S.Clear own none f :=
  ⟨h.own_hidden, nofun, h.hidden, h.declared, nofun⟩

theorem inside (h : S.Clear own mark f) (hi : Inside own inner name) : S.Clear inner mark f :=
  ⟨fun x hx => h.own_hidden x (hi.within x hx), fun x hx hin => h.mark_own x hx (hi.within x hin),
    h.hidden, h.declared, h.marked⟩

/-- Inside a loop with a mark of its own. -/
theorem marking (h : S.Clear own mark f) (hi : Inside own inner name)
    (hd : (f name).isSome = true) : S.Clear inner (some name) f where
  own_hidden x hx := h.own_hidden x (hi.within x hx)
  mark_own x hx := by
    cases hx
    exact hi.apart
  hidden := h.hidden
  declared := h.declared
  marked x hx := by
    cases hx
    exact hd

theorem mark_ne (h : S.Clear own mark f) (hn : own name) : mark ≠ some name :=
  fun hm => h.mark_own name hm hn

end Body.Clear

namespace Keeps

variable {S : Body} {Fault : Type} {steady : Prop} {own inner : String → Prop}
  {mark : Option String} {f f₁ : Flags} {o : Outcome Fault} {name : String}

/-- A loop without a mark, seen from around it. -/
theorem loop (h : Keeps steady own none f o f₁) (hc : S.Clear own mark f) :
    Keeps steady own mark f o.afterLoop f₁ := by
  have hmark : ∀ x, mark = some x → f₁ x = f x := fun x hx => h.others x (hc.mark_own x hx) nofun
  refine ⟨fun x hx _ => h.others x hx nofun, fun _ _ heq => absurd heq o.afterLoop_ne_broke, ?_,
    fun _ x hx _ => hmark x hx, h.known⟩
  intro x hx hf
  rw [hmark x hx]
  exact hf

/-- A loop with a mark of its own, seen from around it. -/
theorem loop_marked (h : Keeps steady inner (some name) f o f₁) (hi : Inside own inner name)
    (hc : S.Clear own mark f) : Keeps steady own mark f o.afterLoop f₁ := by
  have hothers : ∀ x, ¬own x → f₁ x = f x := by
    intro x hx
    refine h.others x (fun hin => hx (hi.within x hin)) ?_
    rintro ⟨⟩
    exact hx hi.owned
  have hmark : ∀ x, mark = some x → f₁ x = f x := fun x hx => hothers x (hc.mark_own x hx)
  refine ⟨fun x hx _ => hothers x hx, fun _ _ heq => absurd heq o.afterLoop_ne_broke, ?_,
    fun _ x hx _ => hmark x hx, h.known⟩
  intro x hx hf
  rw [hmark x hx]
  exact hf

end Keeps

/-- A mark that is declared takes a value. -/
theorem exec_setMark {m : CSharp.Machine} (state : m.State) {flags : Flags} {name : String}
    (h : (flags name).isSome = true) (value : Bool) :
    CSharp.Exec m (.stmt (setMark name value)) ⟨state, flags⟩ []
      .normal ⟨state, flags.set name value⟩ :=
  .setFlag h rfl

end PythonToCSharp.Lowering
