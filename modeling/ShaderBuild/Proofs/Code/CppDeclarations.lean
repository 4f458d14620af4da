import ShaderBuild.Proofs.Code.CppTokens

namespace ShaderBuild.Code.Cpp

open Text (Directive)

inductive Shape
  | constant (type : String)
  | array (length : String)
  | function (result : String) (parameters : List Token)
deriving DecidableEq, Repr

/-- Something that other files may use: a constant or a function, with the namespaces it is in. -/
structure Entity where
  path : List String
  symbol : String
  shape : Shape
deriving DecidableEq, Repr

inductive Declaration
  | enumeration (path : List String) (name : String) (enumerators : List String)
  | struct (path : List String) (name : String)
  | declares (entity : Entity)
  | defines (isInline : Bool) (entity : Entity)
  /-- A variable that is static or of another type, such as a table behind a lookup function. -/
  | table (isInline : Bool) (path : List String) (name : String)
deriving DecidableEq, Repr

namespace Declaration

def declared? : Declaration → Option Entity
  | declares e => some e
  | _ => none

def defined? : Declaration → Option (Bool × Entity)
  | defines b e => some (b, e)
  | _ => none

def enumeration? : Declaration → Option (List String × String × List String)
  | enumeration path n es => some (path, n, es)
  | _ => none

end Declaration

def enumerators? : List Token → Option (List String)
  | [] => some []
  | .word n :: .mark '=' :: .word _ :: .mark ',' :: r =>
    (enumerators? r).map (String.ofList n :: ·)
  | [.word n, .mark '=', .word _] => some [String.ofList n]
  | _ => none

def shape? : List Token → Option (String × Shape)
  | .word c :: .word t :: .word n :: [] =>
    if c = "const".toList then some (.ofList n, .constant (.ofList t)) else none
  | [.word c, .word t, .word n, .mark '[', .word k, .mark ']'] =>
    if c = "const".toList ∧ t = "uint8_t".toList then some (.ofList n, .array (.ofList k)) else none
  | .word c :: .word t :: .mark '&' :: .word n :: .mark '(' :: r =>
    if c = "const".toList ∧ r.getLast? = some (.mark ')') then
      some (.ofList n, .function (.ofList t) r.dropLast)
    else none
  | _ => none

def entity? (path : List String) (head : List Token) : Option Entity :=
  (shape? head).map fun (n, s) => ⟨path, n, s⟩

def variableName? (head : List Token) : Option String :=
  match head.reverse with
  | .word n :: _ => some (.ofList n)
  | _ => none

def withoutEquals (head : List Token) : List Token :=
  if head.getLast? = some (.mark '=') then head.dropLast else head

def definition? (path : List String) (isInline : Bool) (head : List Token) : Option Declaration :=
  match entity? path (withoutEquals head) with
  | some e => some (.defines isInline e)
  | none => (variableName? (withoutEquals head)).map (.table isInline path)

def declaration? (path : List String) (head : List Token) (body : Option (List Token)) :
    Option Declaration :=
  match head, body with
  | .word k :: r, none =>
    if k = "extern".toList then (entity? path r).map .declares
    else match entity? path head with
      | some ⟨p, n, .function t ps⟩ => some (.declares ⟨p, n, .function t ps⟩)
      | _ => none
  | .word k :: r, some body =>
    if k = "enum".toList then
      match r with
      | .word n :: _ => (enumerators? body).map (.enumeration path (.ofList n))
      | _ => none
    else if k = "struct".toList then
      match r with
      | .word n :: _ => some (.struct path (.ofList n))
      | _ => none
    else if k = "static".toList then
      (variableName? (withoutEquals r)).map (.table false path)
    else if k = "inline".toList then definition? path true r
    else definition? path false head
  | _, _ => none

structure Reader where
  path : List String
  head : List Token
  body : Option (List Token)
  depth : Nat
  seen : List Declaration
deriving Repr

namespace Reader

def between (path : List String) (seen : List Declaration) : Reader := ⟨path, [], none, 0, seen⟩

def close (r : Reader) : Option Reader :=
  (declaration? r.path r.head r.body).map fun d => between r.path (r.seen ++ [d])

def opened? : List Token → Option String
  | [.word k, .word n] => if k = "namespace".toList then some (.ofList n) else none
  | _ => none

theorem opened?_concat_mark (ts : List Token) (c : Char) :
    opened? (ts ++ [Token.mark c]) = none := by
  match ts with
  | [] => rfl
  | [t] => cases t <;> rfl
  | [t, u] => cases t <;> cases u <;> rfl
  | t :: u :: v :: ts => cases t <;> cases u <;> rfl

def openBrace (r : Reader) : Option Reader :=
  match opened? r.head, r.body with
  | some n, none => some (between (r.path ++ [n]) r.seen)
  | none, none => some { r with body := some [], depth := 1 }
  | _, some _ => none

def closeBrace (r : Reader) : Option Reader :=
  if r.head = [] ∧ r.body = none ∧ r.path ≠ [] then some (between r.path.dropLast r.seen) else none

def closeBody (r : Reader) : Option Reader :=
  let r := { r with depth := 0 }
  if r.head.getLast? = some (.mark ')') then r.close else some r

def step (r : Reader) (t : Token) : Option Reader :=
  match t, r.depth with
  | .other, _ => none
  | .mark '{', 0 => r.openBrace
  | .mark '}', 0 => r.closeBrace
  | .mark ';', 0 => r.close
  | t, 0 => some { r with head := r.head ++ [t] }
  | .mark '{', k + 1 => some { r with body := r.body.map (· ++ [Token.mark '{']), depth := k + 2 }
  | .mark '}', 1 => r.closeBody
  | .mark '}', k + 2 => some { r with body := r.body.map (· ++ [Token.mark '}']), depth := k + 1 }
  | t, _ => some { r with body := r.body.map (· ++ [t]) }

end Reader

/-- The declarations of a text, if it can be read completely. -/
def read? [Standard] (s : String) : Option (List Declaration) :=
  ((tokens s).foldlM Reader.step (.between [] [])).bind fun r =>
    if r.path = [] ∧ r.head = [] ∧ r.body = none ∧ r.depth = 0 then some r.seen else none

/-- In the namespaces of the path, the tokens are these declarations. -/
def Reads (path : List String) (ts : List Token) (ds : List Declaration) : Prop :=
  ∀ seen, ts.foldlM Reader.step (.between path seen) = some (.between path (seen ++ ds))

/-- Tokens that may stand in a body: every brace that is opened is closed. -/
def Inside (ts : List Token) : Prop :=
  ∀ path head body k seen, ts.foldlM Reader.step ⟨path, head, some body, k + 1, seen⟩ =
    some ⟨path, head, some (body ++ ts), k + 1, seen⟩

section Inside

variable {ts us : List Token}

theorem Inside.nil : Inside [] := fun _ _ _ _ _ => by simp

theorem Inside.append (ht : Inside ts) (hu : Inside us) : Inside (ts ++ us) := by
  intro path head body k seen
  rw [List.foldlM_append, ht]
  exact (hu ..).trans (by rw [List.append_assoc])

theorem step_body {r : Reader} {t : Token} {k : Nat} (ht : t.IsQuiet) (hk : r.depth = k + 1) :
    r.step t = some { r with body := r.body.map (· ++ [t]) } := by
  obtain ⟨h₁, h₂, h₃⟩ := ht
  unfold Reader.step
  rw [hk]
  split <;> simp_all

theorem Inside.of_quiet (h : ∀ t ∈ ts, t.IsQuiet) : Inside ts := by
  induction ts with
  | nil => exact .nil
  | cons t ts ih =>
    obtain ⟨ht, hts⟩ := List.forall_mem_cons.1 h
    intro path head body k seen
    rw [List.foldlM_cons, step_body ht rfl]
    exact (ih hts ..).trans (by simp)

theorem Inside.braces (h : Inside ts) : Inside (Token.mark '{' :: ts ++ [Token.mark '}']) := by
  intro path head body k seen
  rw [List.cons_append, List.foldlM_cons]
  show (ts ++ [Token.mark '}']).foldlM Reader.step
    ⟨path, head, some (body ++ [Token.mark '{']), k + 2, seen⟩ = _
  rw [List.foldlM_append, h]
  show some _ = some _
  simp

theorem Inside.flatMap {α : Type} {xs : List α} {f : α → List Token} (h : ∀ x ∈ xs, Inside (f x)) :
    Inside (xs.flatMap f) := by
  induction xs with
  | nil => exact .nil
  | cons x xs ih =>
    obtain ⟨hx, hxs⟩ := List.forall_mem_cons.1 h
    exact hx.append (ih hxs)

end Inside

section Reads

variable {path : List String} {ts us : List Token} {ds es : List Declaration}

theorem Reads.nil : Reads path [] [] := fun _ => by simp

theorem Reads.eq_nil (h : Reads path [] ds) : ds = [] := by
  have hread := h []
  simpa [Reader.between] using hread

theorem Reads.append (ht : Reads path ts ds) (hu : Reads path us es) :
    Reads path (ts ++ us) (ds ++ es) := by
  intro seen
  rw [List.foldlM_append, ht]
  exact (hu _).trans (by rw [List.append_assoc])

def IsHead (ts : List Token) : Prop := ∀ t ∈ ts, t.IsQuiet ∧ t ≠ .mark ';'

theorem IsHead.read (h : IsHead ts) (head : List Token) (body : Option (List Token))
    (seen : List Declaration) : ts.foldlM Reader.step ⟨path, head, body, 0, seen⟩ =
      some ⟨path, head ++ ts, body, 0, seen⟩ := by
  induction ts generalizing head with
  | nil => simp
  | cons t ts ih =>
    obtain ⟨⟨⟨h₁, h₂, h₃⟩, h₄⟩, hts⟩ := List.forall_mem_cons.1 h
    have hstep : Reader.step ⟨path, head, body, 0, seen⟩ t =
        some ⟨path, head ++ [t], body, 0, seen⟩ := by
      unfold Reader.step
      split <;> simp_all
    rw [List.foldlM_cons, hstep]
    exact (ih hts _).trans (by simp)

theorem Reads.namespace {n : String} (h : Reads (path ++ [n]) ts ds) :
    Reads path (Token.of "namespace" :: .of n :: .mark '{' :: (ts ++ [Token.mark '}'])) ds := by
  intro seen
  have hopen : [Token.of "namespace", .of n, .mark '{'].foldlM Reader.step (.between path seen) =
      some (.between (path ++ [n]) seen) := by
    show some (Reader.between (path ++ [String.ofList n.toList]) seen) = _
    rw [String.ofList_toList]
  have hclose : [Token.mark '}'].foldlM Reader.step (.between (path ++ [n]) (seen ++ ds)) =
      some (.between path (seen ++ ds)) := by
    show Reader.closeBrace _ >>= pure = _
    simp [Reader.closeBrace, Reader.between]
  show ([Token.of "namespace", .of n, .mark '{'] ++ (ts ++ [Token.mark '}'])).foldlM _ _ = _
  rw [List.foldlM_append, hopen, Option.bind_eq_bind, Option.bind_some, List.foldlM_append, h,
    Option.bind_eq_bind, Option.bind_some, hclose]

theorem Reads.statement {head : List Token} {d : Declaration} (h : IsHead head)
    (hd : declaration? path head none = some d) : Reads path (head ++ [Token.mark ';']) [d] := by
  intro seen
  rw [List.foldlM_append, Reader.between, h.read]
  show Reader.close _ >>= pure = _
  simp [Reader.close, hd]

theorem read_body {head body : List Token} (h : IsHead head) (hn : Reader.opened? head = none)
    (hb : Inside body) (seen : List Declaration) :
    (head ++ Token.mark '{' :: body).foldlM Reader.step (.between path seen) =
      some ⟨path, head, some body, 1, seen⟩ := by
  rw [List.foldlM_append, Reader.between, h.read, Option.bind_eq_bind, Option.bind_some,
    List.foldlM_cons]
  show Reader.openBrace _ >>= _ = _
  rw [Reader.openBrace]
  simp only [List.nil_append, hn]
  exact hb path head [] 0 seen

theorem Reads.block {head body : List Token} {d : Declaration} (h : IsHead head)
    (hn : Reader.opened? head = none) (hb : Inside body)
    (hlast : head.getLast? ≠ some (.mark ')')) (hd : declaration? path head (some body) = some d) :
    Reads path (head ++ Token.mark '{' :: (body ++ [Token.mark '}', .mark ';'])) [d] := by
  intro seen
  have hsplit : head ++ Token.mark '{' :: (body ++ [Token.mark '}', .mark ';']) =
      (head ++ Token.mark '{' :: body) ++ [Token.mark '}', .mark ';'] := by simp
  rw [hsplit, List.foldlM_append, read_body h hn hb, Option.bind_eq_bind, Option.bind_some,
    List.foldlM_cons]
  show Reader.closeBody _ >>= _ = _
  rw [Reader.closeBody, if_neg hlast, Option.bind_eq_bind, Option.bind_some]
  show Reader.close _ >>= pure = _
  simp [Reader.close, hd]

theorem Reads.function {head body : List Token} {d : Declaration} (h : IsHead head)
    (hn : Reader.opened? head = none) (hb : Inside body)
    (hlast : head.getLast? = some (.mark ')')) (hd : declaration? path head (some body) = some d) :
    Reads path (head ++ Token.mark '{' :: (body ++ [Token.mark '}'])) [d] := by
  intro seen
  have hsplit : head ++ Token.mark '{' :: (body ++ [Token.mark '}']) =
      (head ++ Token.mark '{' :: body) ++ [Token.mark '}'] := by simp
  rw [hsplit, List.foldlM_append, read_body h hn hb, Option.bind_eq_bind, Option.bind_some,
    List.foldlM_cons]
  show Reader.closeBody _ >>= _ = _
  rw [Reader.closeBody, if_pos hlast]
  simp [Reader.close, hd]

theorem step_other (r : Reader) : r.step .other = none := by
  unfold Reader.step
  split <;> simp_all

/-- What is read has nothing in it that is left out. -/
theorem Reads.complete (h : Reads path ts ds) : Token.other ∉ ts := by
  intro hm
  obtain ⟨a, b, rfl⟩ := List.append_of_mem hm
  have hread := h []
  rw [List.foldlM_append] at hread
  cases ha : a.foldlM Reader.step (.between path []) with
  | none => simp [ha] at hread
  | some r => simp [ha, step_other] at hread

/-- A page has the declarations that its lines are read as. -/
theorem read?_render [Standard] {ls : List Directive} (h : Reads [] (lexes ls) ds) :
    read? (Text.render ls) = some ds := by
  rw [read?, tokens_render h.complete, h []]
  rfl

end Reads

section Entities

def Entity.head : Entity → List Token
  | ⟨_, n, .constant t⟩ => [.of "const", .of t, .of n]
  | ⟨_, n, .array k⟩ => [.of "const", .of "uint8_t", .of n, .mark '[', .of k, .mark ']']
  | ⟨_, n, .function t ps⟩ =>
    .of "const" :: .of t :: .mark '&' :: .of n :: .mark '(' :: (ps ++ [Token.mark ')'])

theorem entity?_head (e : Entity) : entity? e.path e.head = some e := by
  obtain ⟨path, n, t | k | ⟨t, ps⟩⟩ := e <;>
  simp [entity?, shape?, Entity.head, String.ofList_toList]

theorem head_eq_cons (e : Entity) : ∃ r, e.head = Token.of "const" :: r := by
  obtain ⟨path, n, t | k | ⟨t, ps⟩⟩ := e <;> exact ⟨_, rfl⟩

theorem getLast?_function (path : List String) (n t : String) (ps : List Token) :
    (Entity.head ⟨path, n, .function t ps⟩).getLast? = some (.mark ')') :=
  List.getLast?_concat (l := [.of "const", .of t, .mark '&', .of n, .mark '('] ++ ps)

theorem declaration?_declares (e : Entity) :
    declaration? e.path (.of "extern" :: e.head) none = some (.declares e) := by
  show (entity? e.path e.head).map _ = _
  rw [entity?_head]
  rfl

theorem declaration?_prototype (path : List String) (n t : String) (ps : List Token) :
    declaration? path (Entity.head ⟨path, n, .function t ps⟩) none =
      some (.declares ⟨path, n, .function t ps⟩) := by
  have he := entity?_head ⟨path, n, .function t ps⟩
  show (match entity? path _ with
    | some ⟨p, n, .function t ps⟩ => some (Declaration.declares ⟨p, n, .function t ps⟩)
    | _ => none) = _
  rw [he]

theorem withoutEquals_head (e : Entity) : withoutEquals e.head = e.head := by
  obtain ⟨path, n, t | k | ⟨t, ps⟩⟩ := e
  · simp [withoutEquals, Entity.head]
  · simp [withoutEquals, Entity.head]
  · rw [withoutEquals, getLast?_function, if_neg (by simp)]

theorem withoutEquals_append (ts : List Token) : withoutEquals (ts ++ [Token.mark '=']) = ts := by
  simp [withoutEquals]

def linkageTokens (isInline : Bool) : List Token := if isInline then [.of "inline"] else []

theorem declaration?_definition (e : Entity) (b : Bool) {ts : List Token}
    (h : ts = e.head ∨ ts = e.head ++ [Token.mark '=']) (body : List Token) :
    declaration? e.path (linkageTokens b ++ ts) (some body) = some (.defines b e) := by
  have hts : withoutEquals ts = e.head := by
    rcases h with rfl | rfl
    · exact withoutEquals_head e
    · exact withoutEquals_append _
  have hdef : definition? e.path b ts = some (.defines b e) := by
    rw [definition?, hts, entity?_head]
  obtain ⟨r, hr⟩ : ∃ r, ts = Token.of "const" :: r := by
    obtain ⟨r, hr⟩ := head_eq_cons e
    rcases h with rfl | rfl
    · exact ⟨r, hr⟩
    · exact ⟨_, by rw [hr]; rfl⟩
  subst hr
  cases b <;> exact hdef

end Entities

end ShaderBuild.Code.Cpp
