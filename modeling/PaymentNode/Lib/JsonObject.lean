import PaymentNode.Lib.JsonGrammar

/-!
# JsonObject — the values `JSON.parse` builds

A text may repeat a member name; the object built from it has each name once, with the last value, in the place of
the first.
-/

namespace JsonGrammar

open JsonText

section Objects

variable {N : Type}

/-- Defines a property: the value of a name that is there already is replaced where it stands. -/
def define (name : Text) (x : Json N) : List (Text × Json N) → List (Text × Json N)
  | [] => [(name, x)]
  | (key, y) :: ms => if key = name then (key, x) :: ms else (key, y) :: define name x ms

mutual

def evaluate : Json N → Json N
  | .array xs => .array (evaluateItems xs)
  | .object ms => .object (evaluateMembers [] ms)
  | x => x

def evaluateItems : List (Json N) → List (Json N)
  | [] => []
  | x :: xs => evaluate x :: evaluateItems xs

/-- Adds the members to what is there, in the order of the text. -/
def evaluateMembers (done : List (Text × Json N)) : List (Text × Json N) → List (Text × Json N)
  | [] => done
  | (name, x) :: ms => evaluateMembers (define name (evaluate x) done) ms

end

def jsonParse (num : Text → N) (t : Text) : Option (Json N) := (read jsonBlanks num t).map evaluate

mutual

/-- No object has two members of one name, and every number is admitted. -/
def Strict (safe : N → Bool) : Json N → Prop
  | .number n => safe n = true
  | .array xs => StrictItems safe xs
  | .object ms => (ms.map Prod.fst).Nodup ∧ StrictMembers safe ms
  | _ => True

def StrictItems (safe : N → Bool) : List (Json N) → Prop
  | [] => True
  | x :: xs => Strict safe x ∧ StrictItems safe xs

def StrictMembers (safe : N → Bool) : List (Text × Json N) → Prop
  | [] => True
  | (_, x) :: ms => Strict safe x ∧ StrictMembers safe ms

end

theorem define_fresh {name : Text} {x : Json N} {ms : List (Text × Json N)} (h : name ∉ ms.map Prod.fst) :
    define name x ms = ms ++ [(name, x)] := by
  induction ms with
  | nil => rfl
  | cons m ms ih =>
    obtain ⟨key, y⟩ := m
    rw [List.map_cons, List.mem_cons, not_or] at h
    rw [define, if_neg (Ne.symm h.1), ih h.2, List.cons_append]

mutual

theorem evaluate_strict {safe : N → Bool} : ∀ {x : Json N}, Strict safe x → evaluate x = x
  | .null, _ => rfl
  | .bool _, _ => rfl
  | .number _, _ => rfl
  | .string _, _ => rfl
  | .array xs, h => by rw [evaluate, evaluateItems_strict h]
  | .object ms, h => by
    have hmembers : evaluateMembers [] ms = [] ++ ms := evaluateMembers_strict h.2 (by simpa using h.1)
    rw [evaluate, hmembers, List.nil_append]

theorem evaluateItems_strict {safe : N → Bool} : ∀ {xs : List (Json N)}, StrictItems safe xs → evaluateItems xs = xs
  | [], _ => rfl
  | x :: xs, h => by rw [evaluateItems, evaluate_strict h.1, evaluateItems_strict h.2]

theorem evaluateMembers_strict {safe : N → Bool} {done : List (Text × Json N)} :
    ∀ {ms : List (Text × Json N)}, StrictMembers safe ms → ((done ++ ms).map Prod.fst).Nodup →
      evaluateMembers done ms = done ++ ms
  | [], _, _ => (List.append_nil done).symm
  | (name, x) :: ms, h, hnodup => by
    have hfresh : name ∉ done.map Prod.fst := by
      rw [List.map_append, List.map_cons, List.nodup_append] at hnodup
      intro hmem
      exact hnodup.2.2 name hmem name List.mem_cons_self rfl
    have hmore : ((done ++ [(name, x)] ++ ms).map Prod.fst).Nodup := by rwa [List.append_assoc]
    rw [evaluateMembers, evaluate_strict h.1, define_fresh hfresh, evaluateMembers_strict h.2 hmore, List.append_assoc]
    rfl

end

end Objects

end JsonGrammar
