import ShaderBuild.Yaml.Scalar
import ShaderBuild.Yaml.Tag

namespace ShaderBuild.Yaml

structure Properties where
  anchor : Option Nat := none
  tag : Option Tag := none
deriving DecidableEq, Repr, Inhabited

inductive Node
  | reference (number : Nat)
  | scalar (properties : Properties) (style : ScalarStyle) (text : String)
  | sequence (properties : Properties) (items : List Node)
  | mapping (properties : Properties) (entries : List (Node × Node))
deriving Repr, Inhabited

namespace Node

mutual

def decEq : (a b : Node) → Decidable (a = b)
  | reference m, reference n => if h : m = n then isTrue (by rw [h]) else isFalse (by simp [h])
  | scalar p s t, scalar q r u =>
    if h : p = q ∧ s = r ∧ t = u then isTrue (by rw [h.1, h.2.1, h.2.2])
    else isFalse (by simpa using h)
  | sequence p ms, sequence q ns =>
    match decEqItems ms ns with
    | isTrue hi => if h : p = q then isTrue (by rw [h, hi]) else isFalse (by simp [h])
    | isFalse hi => isFalse (by simp [hi])
  | mapping p es, mapping q fs =>
    match decEqEntries es fs with
    | isTrue he => if h : p = q then isTrue (by rw [h, he]) else isFalse (by simp [h])
    | isFalse he => isFalse (by simp [he])
  | reference _, scalar .. | reference _, sequence .. | reference _, mapping ..
  | scalar .., reference _ | scalar .., sequence .. | scalar .., mapping ..
  | sequence .., reference _ | sequence .., scalar .. | sequence .., mapping ..
  | mapping .., reference _ | mapping .., scalar .. | mapping .., sequence .. => isFalse (by simp)

def decEqItems : (ms ns : List Node) → Decidable (ms = ns)
  | [], [] => isTrue rfl
  | [], _ :: _ | _ :: _, [] => isFalse (by simp)
  | m :: ms, n :: ns =>
    match decEq m n, decEqItems ms ns with
    | isTrue hn, isTrue hr => isTrue (by rw [hn, hr])
    | isFalse hn, _ => isFalse (by simp [hn])
    | _, isFalse hr => isFalse (by simp [hr])

def decEqEntries : (es fs : List (Node × Node)) → Decidable (es = fs)
  | [], [] => isTrue rfl
  | [], _ :: _ | _ :: _, [] => isFalse (by simp)
  | (k, v) :: es, (l, w) :: fs =>
    match decEq k l, decEq v w, decEqEntries es fs with
    | isTrue hk, isTrue hv, isTrue hr => isTrue (by rw [hk, hv, hr])
    | isFalse hk, _, _ => isFalse (by simp [hk])
    | _, isFalse hv, _ => isFalse (by simp [hv])
    | _, _, isFalse hr => isFalse (by simp [hr])

end

instance : DecidableEq Node := decEq

def properties : Node → Properties
  | reference _ => {}
  | scalar p _ _ | sequence p _ | mapping p _ => p

def tag? (n : Node) : Option Tag := n.properties.tag

def empty : Node := scalar {} .plain ""

mutual

/-- Number of parts of a document: scalars and aliases, and both ends of each collection. -/
def size : Node → Nat
  | reference _ | scalar .. => 1
  | sequence _ items => 2 + sizeItems items
  | mapping _ entries => 2 + sizeEntries entries

def sizeItems : List Node → Nat
  | [] => 0
  | n :: r => size n + sizeItems r

def sizeEntries : List (Node × Node) → Nat
  | [] => 0
  | (k, v) :: r => size k + size v + sizeEntries r

end

mutual

def anchored : Node → List (Nat × Node)
  | reference _ => []
  | n@(scalar p _ _) => p.anchor.toList.map (·, n)
  | n@(sequence p items) => p.anchor.toList.map (·, n) ++ anchoredItems items
  | n@(mapping p entries) => p.anchor.toList.map (·, n) ++ anchoredEntries entries

def anchoredItems : List Node → List (Nat × Node)
  | [] => []
  | n :: r => anchored n ++ anchoredItems r

def anchoredEntries : List (Node × Node) → List (Nat × Node)
  | [] => []
  | (k, v) :: r => anchored k ++ anchored v ++ anchoredEntries r

end

end Node

end ShaderBuild.Yaml
