import Mathlib.Data.List.Nodup
import LayeredConfig.Setting

/-! The keys of the registry: no two settings share one, none is an observer's, and all are
dotted. -/

namespace LayeredConfig

/-- A number made from a text. Keys are told apart by theirs, as comparing each two keys letter
by letter is slow. -/
def Text.digest (t : Text) : Nat := t.foldl (fun n c => 2 * n + c.value) 0

namespace Setting

-- one statement, so that each key is spelled out once
theorem keys_spelled : (all.map fun x => x.key.digest).Nodup ∧
    ∀ x ∈ all, observerSpace.isPrefixOf x.key = false ∧ .scalar '.' ∈ x.key := by decide +kernel

theorem key_injective {x y : Setting} (h : x.key = y.key) : x = y :=
  List.inj_on_of_nodup_map keys_spelled.1 x.mem_all y.mem_all (congrArg Text.digest h)

theorem observerSpace_not_prefix (x : Setting) : observerSpace.isPrefixOf x.key = false :=
  (keys_spelled.2 x x.mem_all).1

theorem dot_mem_key (x : Setting) : .scalar '.' ∈ x.key := (keys_spelled.2 x x.mem_all).2

end Setting

end LayeredConfig
