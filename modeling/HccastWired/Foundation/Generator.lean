import Mathlib

/-!
# Generators

A generator yields items one after another and then returns a value or raises.
Whoever consumes it has seen every item that was yielded before it raised.
-/

namespace HccastWired.Foundation

/-- The items of a generator, the first one first, and how it ends. -/
structure Generator (α ε β : Type) where
  items : List α
  ending : Except ε β

namespace Generator

variable {α ε β γ : Type}

def yield (item : α) : Generator α ε Unit := ⟨[item], .ok ()⟩

def raise (e : ε) : Generator α ε β := ⟨[], .error e⟩

def andThen (g : Generator α ε β) (f : β → Generator α ε γ) : Generator α ε γ :=
  match g.ending with
  | .ok b => ⟨g.items ++ (f b).items, (f b).ending⟩
  | .error e => ⟨g.items, .error e⟩

instance : Monad (Generator α ε) where
  pure b := ⟨[], .ok b⟩
  bind := andThen

theorem pure_def (b : β) : (pure b : Generator α ε β) = ⟨[], .ok b⟩ := rfl

theorem bind_returned (items : List α) (b : β) (f : β → Generator α ε γ) :
    ((⟨items, .ok b⟩ : Generator α ε β) >>= f) = ⟨items ++ (f b).items, (f b).ending⟩ := rfl

theorem yield_bind (item : α) (f : Unit → Generator α ε γ) :
    (yield item >>= f) = ⟨item :: (f ()).items, (f ()).ending⟩ := rfl

end Generator

end HccastWired.Foundation
