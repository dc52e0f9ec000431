import Pageweave.Error
/-!
# One step after the other

Work that may fail and changes a state: what fails is not gone on with, and the state stays as it was left.
-/
namespace Pageweave

variable {ε σ α β : Type}

theorem bind_apply (x : ExceptT ε (StateM σ) α) (f : α → ExceptT ε (StateM σ) β) (s : σ) :
    (x >>= f) s =
      match x s with
      | (.ok a, s) => f a s
      | (.error e, s) => (.error e, s) := by
  change ((x s : Id (Except ε α × σ)) >>= fun step => ExceptT.bindCont f step.1 step.2) = _
  rcases x s with ⟨_ | _, _⟩ <;> rfl

theorem liftM_bind_apply (r : Except ε α) (f : α → ExceptT ε (StateM σ) β) (s : σ) :
    ((liftM r : ExceptT ε (StateM σ) α) >>= f) s =
      match r with
      | .ok a => f a s
      | .error e => (.error e, s) := by
  rw [bind_apply]
  cases r <;> rfl

theorem mapM_nil_apply (f : α → ExceptT ε (StateM σ) β) (s : σ) : ([] : List α).mapM f s = (.ok [], s) := rfl

theorem mapM_cons_apply (f : α → ExceptT ε (StateM σ) β) (x : α) (xs : List α) (s : σ) :
    (x :: xs).mapM f s =
      match f x s with
      | (.error e, s) => (.error e, s)
      | (.ok b, s) =>
        match xs.mapM f s with
        | (.error e, s) => (.error e, s)
        | (.ok bs, s) => (.ok (b :: bs), s) := by
  rw [List.mapM_cons, bind_apply]
  rcases f x s with ⟨e | b, s⟩
  · rfl
  · dsimp only
    rw [bind_apply]
    rcases xs.mapM f s with ⟨e | bs, s⟩ <;> rfl

end Pageweave
