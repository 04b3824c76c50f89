import HostBridge.Invocation

/-!
# What a call tree stands for

A call tree and the `self` that it is evaluated under are all that an evaluator sees of an
invocation. They can be read back: the receiver and the method from the call, the arguments from
the sequence that is spread, and the block from either of the two places where a tree can hold it.
One reader serves both runtime families, so that no two invocations are confused in either of them,
and an evaluator that goes by what a tree stands for does the same in both.
-/

namespace HostBridge

namespace CallTree

/-- The sequence that is spread as arguments, and the block that the arguments carry. -/
def arguments? : CallTree → Option (HostValue × Option HostValue)
  | .splat (.lit args) => some (args, none)
  | .blockArg (.splat (.lit args)) (.lit block) => some (args, some block)
  | _ => none

/-- The invocation that a tree stands for under a `self`. A call has one block at most. -/
def invocation? (self : HostValue) : CallTree → Option Invocation
  | .call (.lit value) method args => do
      let (args, block) ← args.arguments?
      some { receiver := .bound value, method, args, block }
  | .fcall method args => do
      let (args, block) ← args.arguments?
      some { receiver := .implicit self, method, args, block }
  | .blockPass inner (.lit block) => do
      let invocation ← inner.invocation? self
      if invocation.block = none then some { invocation with block := some block } else none
  | _ => none

end CallTree

namespace Invocation

/-- The call of the method on the receiver, with arguments. -/
def callWith (invocation : Invocation) (args : CallTree) : CallTree :=
  match invocation.receiver with
  | .bound value => .call (.lit value) invocation.method args
  | .implicit _ => .fcall invocation.method args

/-- The arguments without the block. -/
def spread (invocation : Invocation) : CallTree := .splat (.lit invocation.args)

/-- The tree with the block attached to the call. -/
def attached (invocation : Invocation) : CallTree :=
  attach invocation.block (invocation.callWith invocation.spread)

/-- The tree with the block among the arguments. -/
def carried (invocation : Invocation) : CallTree :=
  invocation.callWith
    (match invocation.block with
    | some block => .blockArg invocation.spread (.lit block)
    | none => invocation.spread)

theorem toCallTree_mem (abi : Abi) (invocation : Invocation) :
    invocation.toCallTree abi = invocation.attached ∨
      invocation.toCallTree abi = invocation.carried := by
  obtain ⟨_ | _, method, args, _ | block⟩ := invocation <;> cases abi <;>
    first | exact .inl rfl | exact .inr rfl

end Invocation

namespace CallTree

open Invocation

theorem eq_of_arguments? {tree : CallTree} {args : HostValue} {block : Option HostValue}
    (read : tree.arguments? = some (args, block)) :
    (tree = .splat (.lit args) ∧ block = none) ∨
      ∃ value, tree = .blockArg (.splat (.lit args)) (.lit value) ∧ block = some value := by
  unfold arguments? at read
  split at read
  · cases read
    exact .inl ⟨rfl, rfl⟩
  · cases read
    exact .inr ⟨_, rfl, rfl⟩
  · cases read

theorem callWith_of_arguments? {tree : CallTree} (invocation : Invocation)
    (read : tree.arguments? = some (invocation.args, invocation.block)) :
    invocation.callWith tree = invocation.attached ∨
      invocation.callWith tree = invocation.carried := by
  rcases eq_of_arguments? read with ⟨rfl, absent⟩ | ⟨value, rfl, present⟩
  · rw [attached, absent]
    exact .inl rfl
  · rw [carried, present]
    exact .inr rfl

/-- Only the two trees of an invocation stand for it. -/
theorem eq_of_invocation? {self : HostValue} {tree : CallTree} {invocation : Invocation}
    (read : tree.invocation? self = some invocation) :
    tree = invocation.attached ∨ tree = invocation.carried := by
  fun_induction invocation? self tree generalizing invocation with
  | case1 value method args =>
      obtain ⟨⟨args, block⟩, found, same⟩ := Option.bind_eq_some_iff.mp read
      cases same
      exact callWith_of_arguments? { receiver := .bound value, method, args, block } found
  | case2 method args =>
      obtain ⟨⟨args, block⟩, found, same⟩ := Option.bind_eq_some_iff.mp read
      cases same
      exact callWith_of_arguments? { receiver := .implicit self, method, args, block } found
  | case3 inner block induction =>
      obtain ⟨plain, found, same⟩ := Option.bind_eq_some_iff.mp read
      split at same
      case isTrue bare =>
        cases same
        have inner_eq : inner = plain.callWith plain.spread := by
          rcases induction found with rfl | rfl
          · rw [attached, bare]
            rfl
          · rw [carried, bare]
        rw [inner_eq]
        exact .inl rfl
      case isFalse => cases same
  | case4 => cases read

theorem invocation?_attached (invocation : Invocation) :
    invocation.attached.invocation? invocation.self = some invocation := by
  obtain ⟨_ | _, method, args, _ | block⟩ := invocation <;> rfl

theorem invocation?_carried (invocation : Invocation) :
    invocation.carried.invocation? invocation.self = some invocation := by
  obtain ⟨_ | _, method, args, _ | block⟩ := invocation <;> rfl

theorem invocation?_toCallTree (abi : Abi) (invocation : Invocation) :
    (invocation.toCallTree abi).invocation? invocation.self = some invocation := by
  rcases toCallTree_mem abi invocation with same | same
  · rw [same, invocation?_attached]
  · rw [same, invocation?_carried]

end CallTree

namespace Invocation

/-- No part of an invocation is lost in its tree and `self`. One reader, which knows nothing of
runtime families, gives the invocation back; it takes no other trees for the invocation than those
with the block in one of the two places. Different invocations are therefore different requests to
an evaluator, whatever the families, and an evaluator that answers to what a tree stands for is
asked the same in both families. -/
theorem toCallTree_lossless :
    (∀ (abi : Abi) (invocation : Invocation),
      (invocation.toCallTree abi).invocation? invocation.self = some invocation) ∧
    (∀ (self : HostValue) (tree : CallTree) (invocation : Invocation),
      tree.invocation? self = some invocation →
        tree = invocation.attached ∨ tree = invocation.carried) ∧
    (∀ (left right : Abi) (first second : Invocation), first ≠ second →
      (first.toCallTree left, first.self) ≠ (second.toCallTree right, second.self)) ∧
    (∀ (ε : Type) (evaluator : Evaluator ε) (answer : Invocation → Act ε HostValue),
      (∀ self tree invocation, tree.invocation? self = some invocation →
        evaluator.evaluate tree self = answer invocation) →
      ∀ (left right : Abi) (invocation : Invocation),
        evaluator.evaluate (invocation.toCallTree left) invocation.self = answer invocation ∧
          evaluator.invoke left invocation = evaluator.invoke right invocation) := by
  refine ⟨CallTree.invocation?_toCallTree, fun _ _ _ => CallTree.eq_of_invocation?, ?_, ?_⟩
  · intro left right first second differ same
    obtain ⟨tree_eq, self_eq⟩ := Prod.mk.inj same
    have read := CallTree.invocation?_toCallTree left first
    rw [tree_eq, self_eq, CallTree.invocation?_toCallTree] at read
    exact differ (Option.some.inj read).symm
  · intro ε evaluator answer answers left right invocation
    have asked := fun abi => answers _ _ _ (CallTree.invocation?_toCallTree abi invocation)
    refine ⟨asked left, ?_⟩
    rw [Evaluator.invoke, Evaluator.invoke, asked left, asked right]

/-- A call without receiver that has a block. -/
def each : Invocation :=
  { receiver := .implicit ⟨0x3000⟩, method := 0x51, args := ⟨0x1000⟩, block := some ⟨0x2000⟩ }

/-- An evaluator that answers every call with its block. -/
def echo : Evaluator Unit where
  isSequence _ := pure true
  describe _ := pure ""
  typeError _ := pure .nil
  evaluate tree self := pure (((tree.invocation? self).bind (·.block)).getD .nil)

theorem toCallTree_lossless_each :
    each.toCallTree .frameScope ≠ each.toCallTree .callFrame ∧
      (each.toCallTree .frameScope).invocation? ⟨0x3000⟩ = some each ∧
      (each.toCallTree .callFrame).invocation? ⟨0x3000⟩ = some each ∧
      (each.toCallTree .callFrame, each.self) ≠
        ({ each with block := none }.toCallTree .callFrame, each.self) ∧
      echo.invoke .frameScope each = echo.invoke .callFrame each := by
  obtain ⟨reads, -, distinct, asked⟩ := toCallTree_lossless
  refine ⟨by decide, reads .frameScope each, reads .callFrame each, ?_, ?_⟩
  · exact distinct .callFrame .callFrame each { each with block := none } (by decide)
  · refine (asked Unit echo (fun invocation => pure (invocation.block.getD .nil)) ?_ _ _ each).2
    intro self tree invocation read
    simp only [echo, read]
    rfl

end Invocation

end HostBridge
