import Modbus.Response

/-! Plans: work that is done at once or that needs the answer to a forwarded request first. -/

namespace Modbus

inductive Plan (α : Type) where
  | done (result : α)
  /-- After `notes` for the record, `request` is forwarded; the answer decides. -/
  | ask (notes : List String) (request : Request) (resume : Answer Response → α)

namespace Plan

variable {α β : Type}

def map (f : α → β) : Plan α → Plan β
  | done result => done (f result)
  | ask notes request resume => ask notes request (f ∘ resume)

/-- Carries a plan out, where `note` records and `call` forwards a request. -/
def run {σ : Type} (note : List String → σ → σ) (call : Request → σ → Answer Response × σ)
    (s : σ) : Plan α → α × σ
  | done result => (result, s)
  | ask notes request resume =>
    let (answer, s) := call request (note notes s)
    (resume answer, s)

/-- The result when a request that is forwarded is answered with `answer`. -/
def result (answer : Request → Answer Response) : Plan α → α
  | done result => result
  | ask _ request resume => resume (answer request)

@[simp] theorem map_done (f : α → β) (a : α) : (done a).map f = done (f a) := rfl

@[simp] theorem result_map (answer : Request → Answer Response) (f : α → β) (p : Plan α) :
    (p.map f).result answer = f (p.result answer) := by
  cases p <;> rfl

theorem run_map {σ : Type} (note : List String → σ → σ)
    (call : Request → σ → Answer Response × σ) (s : σ) (f : α → β) (p : Plan α) :
    (p.map f).run note call s = (f (p.run note call s).1, (p.run note call s).2) := by
  cases p <;> rfl

end Plan

end Modbus
