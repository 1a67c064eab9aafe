import Mathlib.Data.List.Basic

/-! The latest value of a sequence of writes.

    Each input may write a value. What is there after all of them is the last value written, or what was
    there before. -/

namespace Latest

variable {ι α : Type}

/-- What is there after the inputs `is`, where `f` says what each of them writes. -/
def latest (f : ι → Option α) (is : List ι) (before : α) : α := (is.filterMap f).getLastD before

@[simp] theorem latest_nil (f : ι → Option α) (before : α) : latest f [] before = before := rfl

/-- One input, and then the others. -/
theorem latest_cons (f : ι → Option α) (i : ι) (is : List ι) (before : α) :
    latest f (i :: is) before = latest f is ((f i).getD before) := by
  unfold latest
  cases hf : f i with
  | none => rw [List.filterMap_cons_none hf]; rfl
  | some a => rw [List.filterMap_cons_some hf, List.getLastD_cons]; rfl

end Latest
