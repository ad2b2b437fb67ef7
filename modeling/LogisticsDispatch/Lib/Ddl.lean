/-
Data definition statements over a catalog of enumerated types, tables, columns, indexes and foreign
keys.

A statement is a change to the catalog (`Stmt.change`) with PostgreSQL's conditions: a name may be
taken only once, what a new object rests on must be there, and nothing is dropped that another
table's foreign key or a column's type still rests on. What goes with a dropped table or column are
its own indexes and foreign keys. In a catalog where everything an object rests on is there
(`Closed`), which every statement keeps, a creating statement is taken back by the one that drops
what it created (`inverse_undo`).

Not modelled: the rows, whether the two columns of a foreign key are of one type, views, sequences,
and other schemas than one.
-/
import LogisticsDispatch.Lib.Changes
import Mathlib.Data.Finset.Basic

set_option autoImplicit false

universe u v

namespace Ddl

/-- What a constraint's own index is for. -/
inductive KeyKind
  | primaryKey
  | unique
  deriving DecidableEq

/-- A column: its name, the enumerated type it is of, if it is of one, and the rest of its
definition. -/
structure Column (N : Type u) (D : Type v) where
  name : N
  enum : Option N
  rest : D
  deriving DecidableEq

/-- The objects of a catalog. -/
inductive Obj (N : Type u) (D : Type v)
  | enumType (name : N) (labels : List N)
  | table (name : N)
  | column (table : N) (column : Column N D)
  /-- An index, a constraint's own (`key`) or one made for its own sake. -/
  | index (name table : N) (columns : List N) (key : Option KeyKind)
  | foreignKey (table name column target targetColumn : N) (actions : D)
  deriving DecidableEq

/-- What objects can rest on. -/
inductive Ref (N : Type u)
  | type (name : N)
  | table (name : N)
  | column (table name : N)
  deriving DecidableEq

variable {N : Type u} {D : Type v} [DecidableEq N] [DecidableEq D]

/-- A reference after a renaming of types and of the columns of each table. -/
def Ref.rename (types : N → N) (columns : N → N → N) : Ref N → Ref N
  | .type n => .type (types n)
  | .table t => .table t
  | .column t c => .column t (columns t c)

namespace Obj

/-- What an object is referred to by. -/
def ref : Obj N D → Option (Ref N)
  | .enumType n _ => some (.type n)
  | .table t => some (.table t)
  | .column t c => some (.column t c.name)
  | .index .. => none
  | .foreignKey .. => none

/-- What an object rests on. -/
def uses : Obj N D → List (Ref N)
  | .enumType .. => []
  | .table _ => []
  | .column t c => .table t :: c.enum.toList.map .type
  | .index _ t cs _ => .table t :: cs.map (.column t)
  | .foreignKey t _ c t' c' _ => [.table t, .table t', .column t c, .column t' c']

/-- An object is what a reference refers to. -/
def isRef (r : Ref N) (o : Obj N D) : Bool := decide (o.ref = some r)

/-- An object is, or rests on, something. -/
def mentions (r : Ref N) (o : Obj N D) : Bool := decide (o.ref = some r ∨ r ∈ o.uses)

/-- The name an object has among the types: a table is the type of its rows, too. -/
def typeName : Obj N D → Option N
  | .enumType n _ => some n
  | .table t => some t
  | _ => none

/-- The name an object has among the tables and indexes. -/
def relationName : Obj N D → Option N
  | .table t => some t
  | .index n .. => some n
  | _ => none

/-- The table and the name of a constraint. -/
def constraintName : Obj N D → Option (N × N)
  | .index n t _ (some _) => some (t, n)
  | .foreignKey t n .. => some (t, n)
  | _ => none

/-- A foreign key of a name. -/
def isForeignKey (t n : N) : Obj N D → Bool
  | .foreignKey t₁ n₁ .. => decide (t₁ = t ∧ n₁ = n)
  | _ => false

/-- An index of a name that is no constraint's. -/
def isPlainIndex (n : N) : Obj N D → Bool
  | .index n₁ _ _ none => decide (n₁ = n)
  | _ => false

/-- A constraint's index on one column. -/
def isKeyOn (t c : N) : Obj N D → Bool
  | .index _ t₁ cs (some _) => decide (t₁ = t ∧ cs = [c])
  | _ => false

/-- A foreign key of another table that refers to a table. -/
def refersTo (t : N) : Obj N D → Bool
  | .foreignKey t₁ _ _ t₂ _ _ => decide (t₂ = t ∧ t₁ ≠ t)
  | _ => false

/-- A foreign key, of another column, that refers to a column. -/
def refersToColumn (t c : N) : Obj N D → Bool
  | .foreignKey t₁ _ c₁ t₂ c₂ _ => decide ((t₂ = t ∧ c₂ = c) ∧ ¬ (t₁ = t ∧ c₁ = c))
  | _ => false

/-- An object after a renaming of types and of the columns of each table. -/
def rename (types : N → N) (columns : N → N → N) : Obj N D → Obj N D
  | .enumType n labels => .enumType (types n) labels
  | .table t => .table t
  | .column t c => .column t ⟨columns t c.name, c.enum.map types, c.rest⟩
  | .index n t cs key => .index n t (cs.map (columns t)) key
  | .foreignKey t n c t' c' actions => .foreignKey t n (columns t c) t' (columns t' c') actions

variable {o : Obj N D} {r : Ref N} {t c n : N}

omit [DecidableEq D]

theorem isRef_iff : o.isRef r = true ↔ o.ref = some r := decide_eq_true_iff

theorem mentions_iff : o.mentions r = true ↔ o.ref = some r ∨ r ∈ o.uses := decide_eq_true_iff

omit [DecidableEq N] in
theorem ref_rename (types : N → N) (columns : N → N → N) (o : Obj N D) :
    (o.rename types columns).ref = o.ref.map (Ref.rename types columns) := by
  cases o <;> rfl

omit [DecidableEq N] in
theorem uses_rename (types : N → N) (columns : N → N → N) (o : Obj N D) :
    (o.rename types columns).uses = o.uses.map (Ref.rename types columns) := by
  cases o with
  | enumType n labels => rfl
  | table t => rfl
  | column t c =>
      cases h : c.enum <;> simp [rename, uses, Ref.rename, h]
  | index n t cs key => simp [rename, uses, Ref.rename, Function.comp_def]
  | foreignKey t n c t' c' actions => rfl

omit [DecidableEq N] in
/-- What rests on a column rests on its table. -/
theorem table_mem_uses (h : Ref.column t c ∈ o.uses) : Ref.table t ∈ o.uses := by
  cases o <;> simp only [uses] at h ⊢ <;> grind

omit [DecidableEq N] in
/-- What rests on a table and is referred to is one of its columns. -/
theorem ref_of_table_mem_uses (h : Ref.table t ∈ o.uses) (href : o.ref = some r) :
    ∃ c, r = .column t c := by
  cases o <;> simp only [ref, uses] at h href <;> grind

omit [DecidableEq N] in
/-- What rests on a column is not referred to. -/
theorem ref_of_column_mem_uses (h : Ref.column t c ∈ o.uses) : o.ref = none := by
  cases o <;> simp only [ref, uses] at h ⊢ <;> grind

theorem mentions_of_refersTo (h : o.refersTo t = true) : o.mentions (.table t) = true := by
  rw [mentions_iff]
  cases o <;> simp only [refersTo, uses] at h ⊢ <;> grind

theorem mentions_of_refersToColumn (h : o.refersToColumn t c = true) :
    o.mentions (.column t c) = true := by
  rw [mentions_iff]
  cases o <;> simp only [refersToColumn, uses] at h ⊢ <;> grind

theorem ref_of_isForeignKey (h : o.isForeignKey t n = true) : o.ref = none := by
  cases o <;> first | rfl | cases h

theorem ref_of_isPlainIndex (h : o.isPlainIndex n = true) : o.ref = none := by
  cases o <;> first | rfl | cases h

theorem constraintName_of_isForeignKey (h : o.isForeignKey t n = true) :
    o.constraintName = some (t, n) := by
  cases o <;> simp only [isForeignKey, constraintName] at h ⊢ <;> grind

theorem relationName_of_isPlainIndex (h : o.isPlainIndex n = true) :
    o.relationName = some n := by
  cases o <;> simp only [isPlainIndex, relationName] at h ⊢ <;> grind

end Obj

/-! ## Statements -/

/-- The statements. A table's keys are its constraints' indexes. -/
inductive Stmt (N : Type u) (D : Type v)
  | createType (name : N) (labels : List N)
  | dropType (name : N)
  | renameType (name newName : N)
  | createTable (name : N) (columns : List (Column N D)) (keys : List (N × KeyKind × List N))
  | dropTable (name : N)
  | addColumn (table : N) (column : Column N D)
  | dropColumn (table name : N)
  | renameColumn (table name newName : N)
  | addForeignKey (table name column target targetColumn : N) (actions : D)
  | dropForeignKey (table name : N)
  | createIndex (name table : N) (columns : List N)
  | dropIndex (name : N)
  deriving DecidableEq

/-- The objects of a new table. -/
def tableObjs (name : N) (columns : List (Column N D)) (keys : List (N × KeyKind × List N)) :
    List (Obj N D) :=
  .table name :: columns.map (.column name) ++
    keys.map fun k => .index k.1 name k.2.2 (some k.2.1)

/-- The names of a table's keys and columns are all different, and its keys are over its
columns. -/
def WellFormed (name : N) (columns : List (Column N D)) (keys : List (N × KeyKind × List N)) :
    Prop :=
  (columns.map Column.name).Nodup ∧ (name :: keys.map Prod.fst).Nodup ∧
    ∀ k ∈ keys, k.2.2 ≠ [] ∧ ∀ c ∈ k.2.2, c ∈ columns.map Column.name

instance (name : N) (columns : List (Column N D)) (keys : List (N × KeyKind × List N)) :
    Decidable (WellFormed name columns keys) :=
  inferInstanceAs (Decidable (_ ∧ _ ∧ _))

/-- What another name takes the place of. -/
def renamed (name newName n : N) : N := if n = name then newName else n

namespace Stmt

/-- What a statement does to a catalog. -/
def change : Stmt N D → Change (Obj N D)
  | createType n labels =>
      { valid := decide labels.Nodup
        refuses := fun o => decide (o.typeName = some n)
        needs := []
        adds := {.enumType n labels} }
  -- refused while a column is of the type
  | dropType n =>
      { refuses := fun o => decide (Ref.type n ∈ o.uses)
        needs := [Obj.isRef (.type n)]
        drops := Obj.mentions (.type n) }
  | renameType n n' =>
      { refuses := fun o => decide (o.typeName = some n')
        needs := [Obj.isRef (.type n)]
        renames := Obj.rename (renamed n n') fun _ c => c }
  | createTable n columns keys =>
      { valid := decide (WellFormed n columns keys)
        refuses := fun o => decide (o.typeName = some n ∨
          ∃ name ∈ n :: keys.map Prod.fst, o.relationName = some name)
        needs := (columns.filterMap Column.enum).map fun e => Obj.isRef (.type e)
        adds := (tableObjs n columns keys).toFinset }
  -- the table's own columns, indexes and foreign keys go with it
  | dropTable n =>
      { refuses := Obj.refersTo n
        needs := [Obj.isRef (.table n)]
        drops := Obj.mentions (.table n) }
  | addColumn t c =>
      { refuses := Obj.isRef (.column t c.name)
        needs := (Obj.column t c : Obj N D).uses.map Obj.isRef
        adds := {.column t c} }
  -- so do the indexes and foreign keys of a column
  | dropColumn t c =>
      { refuses := Obj.refersToColumn t c
        needs := [Obj.isRef (.column t c)]
        drops := Obj.mentions (.column t c) }
  | renameColumn t c c' =>
      { refuses := Obj.isRef (.column t c')
        needs := [Obj.isRef (.column t c)]
        renames := Obj.rename id fun t₁ => if t₁ = t then renamed c c' else id }
  -- a key of the target is over the column that is referred to
  | addForeignKey t n c t' c' actions =>
      { refuses := fun o => decide (o.constraintName = some (t, n))
        needs := Obj.isKeyOn t' c' ::
          (Obj.foreignKey t n c t' c' actions : Obj N D).uses.map Obj.isRef
        adds := {.foreignKey t n c t' c' actions} }
  | dropForeignKey t n =>
      { refuses := fun _ => false
        needs := [Obj.isForeignKey t n]
        drops := Obj.isForeignKey t n }
  | createIndex n t columns =>
      { valid := decide (columns ≠ [])
        refuses := fun o => decide (o.relationName = some n)
        needs := (Obj.index n t columns none : Obj N D).uses.map Obj.isRef
        adds := {.index n t columns none} }
  -- a constraint's index goes with its constraint only
  | dropIndex n =>
      { refuses := fun _ => false
        needs := [Obj.isPlainIndex n]
        drops := Obj.isPlainIndex n }

end Stmt

/-- Everything an object rests on is there. -/
def Closed (s : Finset (Obj N D)) : Prop :=
  ∀ o ∈ s, ∀ r ∈ o.uses, ∃ o' ∈ s, o'.ref = some r

variable {s s' : Finset (Obj N D)} {c c' : Change (Obj N D)} {stmt stmt' : Stmt N D} {r : Ref N}

omit [DecidableEq N] [DecidableEq D] in
theorem closed_empty : Closed (∅ : Finset (Obj N D)) := fun o ho => by cases ho

omit [DecidableEq D] in
/-- What is not there is not mentioned. -/
theorem Closed.mentions_eq_false (hs : Closed s) (hr : ∀ o ∈ s, o.ref ≠ some r)
    {o : Obj N D} (ho : o ∈ s) : o.mentions r = false := by
  rw [← Bool.not_eq_true, Obj.mentions_iff]
  rintro (h | h)
  · exact hr o ho h
  · obtain ⟨o', ho', href⟩ := hs o ho r h
    exact hr o' ho' href

/-! ## A statement keeps a catalog closed -/

/-- A change keeps a catalog closed if it renames references throughout, drops nothing that rests
on what it drops without that, and adds what rests on what is there. -/
theorem closed_result (hs : Closed s) {ρ : Ref N → Ref N}
    (href : ∀ o, (c.renames o).ref = o.ref.map ρ) (huses : ∀ o, (c.renames o).uses = o.uses.map ρ)
    (hdrops : ∀ o ∈ s, c.drops o = false → ∀ o' ∈ s, ∀ r ∈ o.uses, o'.ref = some r →
      c.drops o' = false)
    (hadds : ∀ o ∈ c.adds, ∀ r ∈ o.uses, ∃ o' ∈ c.result s, o'.ref = some r) :
    Closed (c.result s) := by
  intro o ho r hr
  rcases Change.mem_result.mp ho with ⟨o₁, ho₁, hkept, rfl⟩ | hadded
  · rw [huses] at hr
    obtain ⟨r₁, hr₁, rfl⟩ := List.mem_map.mp hr
    obtain ⟨o', ho', href'⟩ := hs o₁ ho₁ r₁ hr₁
    refine ⟨c.renames o', Change.mem_result.mpr (.inl ⟨o', ho', ?_, rfl⟩), ?_⟩
    · exact hdrops o₁ ho₁ hkept o' ho' r₁ hr₁ href'
    · rw [href, href', Option.map_some]
  · exact hadds o hadded r hr

/-- A change that renames nothing. -/
theorem closed_result_of_id (hs : Closed s) (hid : c.renames = id)
    (hdrops : ∀ o ∈ s, c.drops o = false → ∀ o' ∈ s, ∀ r ∈ o.uses, o'.ref = some r →
      c.drops o' = false)
    (hadds : ∀ o ∈ c.adds, ∀ r ∈ o.uses, ∃ o' ∈ c.result s, o'.ref = some r) :
    Closed (c.result s) := by
  refine closed_result hs (ρ := id) (fun o => ?_) (fun o => ?_) hdrops hadds
  · rw [hid, id, Option.map_id_fun, id]
  · rw [hid, id, List.map_id_fun, id]

/-- A change that only adds what rests on what it needs. -/
theorem closed_of_adds (hs : Closed s) (h : c.apply s = some s') (hid : c.renames = id)
    (hdrops : c.drops = fun _ => false)
    (hadds : ∀ o ∈ c.adds, ∀ r ∈ o.uses,
      Obj.isRef r ∈ c.needs ∨ ∃ o' ∈ c.adds, o'.ref = some r) : Closed s' := by
  obtain ⟨⟨-, -, hneeds⟩, rfl⟩ := Change.apply_eq_some.mp h
  refine closed_result_of_id hs hid (fun _ _ _ _ _ _ _ _ => by rw [hdrops]) fun o ho r hr => ?_
  rcases hadds o ho r hr with hr | ⟨o', ho', href⟩
  · obtain ⟨o', ho', href⟩ := hneeds _ hr
    refine ⟨o', Change.mem_result_of_mem ho' ?_ ?_, Obj.isRef_iff.mp href⟩
    · rw [hdrops]
    · rw [hid, id]
  · exact ⟨o', Change.mem_result_of_adds ho', href⟩

/-- A change that drops what mentions something that nothing else can be. -/
theorem closed_of_drops (hs : Closed s) (h : c.apply s = some s') (hid : c.renames = id)
    (hadds : c.adds = ∅)
    (hdrops : ∀ o o', c.refuses o' = false → c.drops o' = true → ∀ r ∈ o.uses, o'.ref = some r →
      c.drops o = true) : Closed s' := by
  obtain ⟨⟨-, hrefuses, -⟩, rfl⟩ := Change.apply_eq_some.mp h
  refine closed_result_of_id hs hid (fun o ho hkept o' ho' r hr href => ?_) fun o ho => ?_
  · rw [← Bool.not_eq_true]
    intro hdropped
    rw [hdrops o o' (hrefuses o' ho') hdropped r hr href] at hkept
    cases hkept
  · rw [hadds] at ho
    cases ho

/-- A change that only renames. -/
theorem closed_of_renames (hs : Closed s) (h : c.apply s = some s') (types : N → N)
    (columns : N → N → N) (hrenames : c.renames = Obj.rename types columns)
    (hdrops : c.drops = fun _ => false) (hadds : c.adds = ∅) : Closed s' := by
  obtain ⟨-, rfl⟩ := Change.apply_eq_some.mp h
  refine closed_result hs (ρ := Ref.rename types columns) (fun o => ?_) (fun o => ?_)
    (fun _ _ _ _ _ _ _ _ => by rw [hdrops]) fun o ho => ?_
  · rw [hrenames, Obj.ref_rename]
  · rw [hrenames, Obj.uses_rename]
  · rw [hadds] at ho
    cases ho

omit [DecidableEq N] [DecidableEq D] in
/-- What a new table's columns and keys rest on is the table, its columns, and the types needed. -/
theorem uses_tableObjs {n : N} {columns : List (Column N D)}
    {keys : List (N × KeyKind × List N)} (h : WellFormed n columns keys) {o : Obj N D}
    (ho : o ∈ tableObjs n columns keys) (hr : r ∈ o.uses) :
    (∃ e ∈ columns.filterMap Column.enum, r = .type e) ∨
      ∃ o' ∈ tableObjs n columns keys, o'.ref = some r := by
  simp only [tableObjs, List.cons_append, List.mem_cons, List.mem_append, List.mem_map] at ho ⊢
  rcases ho with rfl | ⟨c, hc, rfl⟩ | ⟨k, hk, rfl⟩
  · cases hr
  · rcases List.mem_cons.mp hr with rfl | hr
    · exact .inr ⟨_, .inl rfl, rfl⟩
    · obtain ⟨e, he, rfl⟩ := List.mem_map.mp hr
      exact .inl ⟨e, List.mem_filterMap.mpr ⟨c, hc, Option.mem_toList.mp he⟩, rfl⟩
  · rcases List.mem_cons.mp hr with rfl | hr
    · exact .inr ⟨_, .inl rfl, rfl⟩
    · obtain ⟨name, hname, rfl⟩ := List.mem_map.mp hr
      obtain ⟨c, hc, rfl⟩ := List.mem_map.mp ((h.2.2 k hk).2 name hname)
      exact .inr ⟨_, .inr (.inl ⟨c, hc, rfl⟩), rfl⟩

/-- **A statement keeps a catalog closed.** -/
theorem closed_apply (hs : Closed s) (h : stmt.change.apply s = some s') : Closed s' := by
  cases stmt with
  | createType n labels =>
      refine closed_of_adds hs h rfl rfl fun o ho r hr => ?_
      cases Finset.mem_singleton.mp ho
      cases hr
  | dropType n =>
      refine closed_of_drops hs h rfl rfl fun o o' hrefuses hdropped r hr href => ?_
      rcases Obj.mentions_iff.mp hdropped with hn | hn
      · cases href.symm.trans hn
        exact Obj.mentions_iff.mpr (.inr hr)
      · exact absurd hn (of_decide_eq_false hrefuses)
  | renameType n n' =>
      exact closed_of_renames hs h (renamed n n') (fun _ c => c) rfl rfl rfl
  | createTable n columns keys =>
      refine closed_of_adds hs h rfl rfl fun o ho r hr => ?_
      have hwell : WellFormed n columns keys :=
        of_decide_eq_true (Change.apply_eq_some.mp h).1.1
      rcases uses_tableObjs hwell (List.mem_toFinset.mp ho) hr with ⟨e, he, rfl⟩ | ⟨o', ho', href⟩
      · exact .inl (List.mem_map.mpr ⟨e, he, rfl⟩)
      · exact .inr ⟨o', List.mem_toFinset.mpr ho', href⟩
  | dropTable n =>
      refine closed_of_drops hs h rfl rfl fun o o' _ hdropped r hr href => ?_
      refine Obj.mentions_iff.mpr (.inr ?_)
      rcases Obj.mentions_iff.mp hdropped with hn | hn
      · cases href.symm.trans hn
        exact hr
      -- a column of the table
      · obtain ⟨c, rfl⟩ := Obj.ref_of_table_mem_uses hn href
        exact Obj.table_mem_uses hr
  | addColumn t c =>
      refine closed_of_adds hs h rfl rfl fun o ho r hr => .inl ?_
      rw [Finset.mem_singleton.mp ho] at hr
      exact List.mem_map.mpr ⟨r, hr, rfl⟩
  | dropColumn t c =>
      refine closed_of_drops hs h rfl rfl fun o o' _ hdropped r hr href => ?_
      rcases Obj.mentions_iff.mp hdropped with hn | hn
      · cases href.symm.trans hn
        exact Obj.mentions_iff.mpr (.inr hr)
      · rw [Obj.ref_of_column_mem_uses hn] at href
        cases href
  | renameColumn t c c' =>
      exact closed_of_renames hs h id (fun t₁ => if t₁ = t then renamed c c' else id) rfl rfl rfl
  | addForeignKey t n c t' c' actions =>
      refine closed_of_adds hs h rfl rfl fun o ho r hr => .inl (List.mem_cons_of_mem _ ?_)
      rw [Finset.mem_singleton.mp ho] at hr
      exact List.mem_map.mpr ⟨r, hr, rfl⟩
  | dropForeignKey t n =>
      refine closed_of_drops hs h rfl rfl fun o o' _ hdropped r _ href => ?_
      rw [Obj.ref_of_isForeignKey hdropped] at href
      cases href
  | createIndex n t columns =>
      refine closed_of_adds hs h rfl rfl fun o ho r hr => .inl ?_
      rw [Finset.mem_singleton.mp ho] at hr
      exact List.mem_map.mpr ⟨r, hr, rfl⟩
  | dropIndex n =>
      refine closed_of_drops hs h rfl rfl fun o o' _ hdropped r _ href => ?_
      rw [Obj.ref_of_isPlainIndex hdropped] at href
      cases href

/-! ## A statement keeps names apart -/

/-- No two tables or indexes have one name. -/
def Distinct (s : Finset (Obj N D)) : Prop :=
  ∀ o ∈ s, ∀ o' ∈ s, ∀ n, o.relationName = some n → o'.relationName = some n → o = o'

omit [DecidableEq N] [DecidableEq D] in
theorem distinct_empty : Distinct (∅ : Finset (Obj N D)) := fun o ho => by cases ho

/-- A change keeps names apart if it renames neither tables nor indexes, and what it adds has new
names. -/
theorem distinct_result (hs : Distinct s)
    (hrenames : ∀ o, (c.renames o).relationName = o.relationName)
    (hfresh : ∀ o ∈ c.adds, ∀ n, o.relationName = some n → ∀ o' ∈ s, o'.relationName ≠ some n)
    (hadds : Distinct c.adds) : Distinct (c.result s) := by
  intro o ho o' ho' n hn hn'
  rcases Change.mem_result.mp ho with ⟨o₁, ho₁, -, rfl⟩ | hadded
  · rcases Change.mem_result.mp ho' with ⟨o₂, ho₂, -, rfl⟩ | hadded'
    · rw [hrenames] at hn hn'
      rw [hs o₁ ho₁ o₂ ho₂ n hn hn']
    · rw [hrenames] at hn
      exact absurd hn (hfresh o' hadded' n hn' o₁ ho₁)
  · rcases Change.mem_result.mp ho' with ⟨o₂, ho₂, -, rfl⟩ | hadded'
    · rw [hrenames] at hn'
      exact absurd hn' (hfresh o hadded n hn o₂ ho₂)
    · exact hadds o hadded o' hadded' n hn hn'

omit [DecidableEq N] [DecidableEq D] in
theorem distinct_singleton (o : Obj N D) : Distinct {o} := by
  intro o₁ ho₁ o₂ ho₂ n _ _
  rw [Finset.mem_singleton.mp ho₁, Finset.mem_singleton.mp ho₂]

theorem distinct_tableObjs {n : N} {columns : List (Column N D)}
    {keys : List (N × KeyKind × List N)} (h : WellFormed n columns keys) :
    Distinct (tableObjs n columns keys).toFinset := by
  obtain ⟨hn, hkeys⟩ := List.nodup_cons.mp h.2.1
  intro o ho o' ho' m hm hm'
  simp only [tableObjs, List.mem_toFinset, List.cons_append, List.mem_cons, List.mem_append,
    List.mem_map] at ho ho'
  rcases ho with rfl | ⟨c, -, rfl⟩ | ⟨k, hk, rfl⟩
  · cases hm
    rcases ho' with rfl | ⟨c, -, rfl⟩ | ⟨k, hk, rfl⟩
    · rfl
    · cases hm'
    · cases hm'
      exact absurd (List.mem_map.mpr ⟨k, hk, rfl⟩) hn
  · cases hm
  · cases hm
    rcases ho' with rfl | ⟨c, -, rfl⟩ | ⟨k', hk', rfl⟩
    · cases hm'
      exact absurd (List.mem_map.mpr ⟨k, hk, rfl⟩) hn
    · cases hm'
    · rw [List.inj_on_of_nodup_map hkeys hk' hk (Option.some.inj hm')]

omit [DecidableEq N] [DecidableEq D] in
theorem relationName_of_mem_tableObjs {n m : N} {columns : List (Column N D)}
    {keys : List (N × KeyKind × List N)} {o : Obj N D} (ho : o ∈ tableObjs n columns keys)
    (hm : o.relationName = some m) : m ∈ n :: keys.map Prod.fst := by
  simp only [tableObjs, List.cons_append, List.mem_cons, List.mem_append, List.mem_map] at ho
  rcases ho with rfl | ⟨c, -, rfl⟩ | ⟨k, hk, rfl⟩
  · cases hm
    exact List.mem_cons_self
  · cases hm
  · cases hm
    exact List.mem_cons_of_mem _ (List.mem_map.mpr ⟨k, hk, rfl⟩)

/-- **A statement keeps the names of tables and indexes apart.** -/
theorem distinct_apply (hs : Distinct s) (h : stmt.change.apply s = some s') : Distinct s' := by
  obtain ⟨⟨hvalid, hrefuses, -⟩, rfl⟩ := Change.apply_eq_some.mp h
  have hrenames : ∀ o, (stmt.change.renames o).relationName = o.relationName := by
    intro o
    cases stmt <;> cases o <;> rfl
  cases stmt with
  | createType n labels =>
      refine distinct_result hs hrenames (fun o ho m hm => ?_) (distinct_singleton _)
      cases Finset.mem_singleton.mp ho
      cases hm
  | createTable n columns keys =>
      refine distinct_result hs hrenames (fun o ho m hm o' ho' hm' => ?_)
        (distinct_tableObjs (of_decide_eq_true hvalid))
      refine of_decide_eq_false (hrefuses o' ho') (.inr ⟨m, ?_, hm'⟩)
      exact relationName_of_mem_tableObjs (List.mem_toFinset.mp ho) hm
  | addColumn t c =>
      refine distinct_result hs hrenames (fun o ho m hm => ?_) (distinct_singleton _)
      cases Finset.mem_singleton.mp ho
      cases hm
  | addForeignKey t n c t' c' actions =>
      refine distinct_result hs hrenames (fun o ho m hm => ?_) (distinct_singleton _)
      cases Finset.mem_singleton.mp ho
      cases hm
  | createIndex n t columns =>
      refine distinct_result hs hrenames (fun o ho m hm o' ho' hm' => ?_) (distinct_singleton _)
      cases Finset.mem_singleton.mp ho
      cases hm
      exact of_decide_eq_false (hrefuses o' ho') hm'
  | _ => exact distinct_result hs hrenames (fun o ho => by cases ho) distinct_empty

/-! ## Taking back what was created -/

/-- The statement that drops what another creates, if it creates something. -/
def Stmt.inverse : Stmt N D → Option (Stmt N D)
  | createType n _ => some (dropType n)
  | createTable n _ _ => some (dropTable n)
  | addColumn t c => some (dropColumn t c.name)
  | addForeignKey t n _ _ _ _ => some (dropForeignKey t n)
  | createIndex n _ _ => some (dropIndex n)
  | _ => none

/-- A change that only adds is taken back by one that drops what was added, and only that. -/
theorem undo_of_adds (h : c.apply s = some s') (hid : c.renames = id)
    (hdrops : c.drops = fun _ => false) (hvalid : c'.valid = true) (hid' : c'.renames = id)
    (hnone : c'.adds = ∅) (hspares : ∀ o ∈ s, c'.refuses o = false ∧ c'.drops o = false)
    (hadds : ∀ o ∈ c.adds, c'.refuses o = false ∧ c'.drops o = true)
    (hneeds : ∀ need ∈ c'.needs, ∃ o ∈ c.adds, need o = true) : c'.apply s' = some s := by
  refine Change.undo h (fun o _ => by rw [hdrops]) (fun o ho => ?_) hadds (fun need hneed => ?_)
    hvalid hnone
  · rw [hid, hid', id, id]
    exact ⟨(hspares o ho).1, (hspares o ho).2, rfl⟩
  · obtain ⟨o, ho, hneed⟩ := hneeds need hneed
    obtain ⟨-, rfl⟩ := Change.apply_eq_some.mp h
    exact ⟨o, Change.mem_result_of_adds ho, hneed⟩

/-- What is created under a new reference is taken back by dropping what mentions it. -/
theorem undo_of_mentions (hs : Closed s) (h : c.apply s = some s') (hid : c.renames = id)
    (hdrops : c.drops = fun _ => false) (hvalid : c'.valid = true) (hid' : c'.renames = id)
    (hnone : c'.adds = ∅) (hdrops' : c'.drops = Obj.mentions r)
    (hfresh : ∀ o, o.ref = some r → c.refuses o = true)
    (hrefuses : ∀ o, c'.refuses o = true → o.mentions r = true)
    (hadds : ∀ o ∈ c.adds, c'.refuses o = false ∧ o.mentions r = true)
    (hneeds : ∀ need ∈ c'.needs, ∃ o ∈ c.adds, need o = true) : c'.apply s' = some s := by
  have hallowed := (Change.apply_eq_some.mp h).1
  have hspares : ∀ o ∈ s, o.mentions r = false := by
    refine fun o ho => hs.mentions_eq_false (fun o' ho' href => ?_) ho
    exact Bool.false_ne_true ((hallowed.2.1 o' ho').symm.trans (hfresh o' href))
  refine undo_of_adds h hid hdrops hvalid hid' hnone (fun o ho => ⟨?_, ?_⟩) (fun o ho => ?_) hneeds
  · rw [← Bool.not_eq_true]
    intro hrefused
    exact Bool.false_ne_true ((hspares o ho).symm.trans (hrefuses o hrefused))
  · rw [hdrops', hspares o ho]
  · rw [hdrops']
    exact hadds o ho

/-- What is created under a new name is taken back by dropping what has the name. -/
theorem undo_of_named (h : c.apply s = some s') (hid : c.renames = id)
    (hdrops : c.drops = fun _ => false) (hvalid : c'.valid = true) (hid' : c'.renames = id)
    (hnone : c'.adds = ∅) (hrefuses : c'.refuses = fun _ => false) (hneeds : c'.needs = [c'.drops])
    (hfresh : ∀ o, c'.drops o = true → c.refuses o = true)
    (hadds : ∀ o ∈ c.adds, c'.drops o = true) (hsome : c.adds.Nonempty) :
    c'.apply s' = some s := by
  have hallowed := (Change.apply_eq_some.mp h).1
  refine undo_of_adds h hid hdrops hvalid hid' hnone (fun o ho => ⟨?_, ?_⟩) (fun o ho => ⟨?_, ?_⟩)
    fun need hneed => ?_
  · rw [hrefuses]
  · rw [← Bool.not_eq_true]
    intro hdropped
    exact Bool.false_ne_true ((hallowed.2.1 o ho).symm.trans (hfresh o hdropped))
  · rw [hrefuses]
  · exact hadds o ho
  · rw [hneeds, List.mem_singleton] at hneed
    subst hneed
    obtain ⟨o, ho⟩ := hsome
    exact ⟨o, ho, hadds o ho⟩

omit [DecidableEq D] in
/-- Every object of a new table is it or rests on it. -/
theorem mentions_of_mem_tableObjs {n : N} {columns : List (Column N D)}
    {keys : List (N × KeyKind × List N)} {o : Obj N D} (ho : o ∈ tableObjs n columns keys) :
    o.refersTo n = false ∧ o.mentions (.table n) = true := by
  simp only [tableObjs, List.cons_append, List.mem_cons, List.mem_append, List.mem_map] at ho
  rcases ho with rfl | ⟨c, -, rfl⟩ | ⟨k, -, rfl⟩
  · exact ⟨rfl, Obj.mentions_iff.mpr (.inl rfl)⟩
  · exact ⟨rfl, Obj.mentions_iff.mpr (.inr List.mem_cons_self)⟩
  · exact ⟨rfl, Obj.mentions_iff.mpr (.inr List.mem_cons_self)⟩

/-- **In a closed catalog, the inverse of a creating statement takes it back.** -/
theorem inverse_undo (hs : Closed s) (hinverse : stmt.inverse = some stmt')
    (h : stmt.change.apply s = some s') : stmt'.change.apply s' = some s := by
  cases stmt with
  | createType n labels =>
      cases hinverse
      refine undo_of_mentions hs h rfl rfl rfl rfl rfl rfl (fun o href => ?_) (fun o huse => ?_)
        (fun o ho => ?_) fun need hneed => ?_
      · cases o <;> cases href
        exact decide_eq_true rfl
      · exact Obj.mentions_iff.mpr (.inr (of_decide_eq_true huse))
      · cases Finset.mem_singleton.mp ho
        exact ⟨rfl, Obj.mentions_iff.mpr (.inl rfl)⟩
      · cases List.mem_singleton.mp hneed
        exact ⟨_, Finset.mem_singleton_self _, Obj.isRef_iff.mpr rfl⟩
  | createTable n columns keys =>
      cases hinverse
      refine undo_of_mentions hs h rfl rfl rfl rfl rfl rfl (fun o href => ?_)
        (fun o => Obj.mentions_of_refersTo) (fun o ho => ?_) fun need hneed => ?_
      · cases o <;> cases href
        exact decide_eq_true (.inl rfl)
      · exact mentions_of_mem_tableObjs (List.mem_toFinset.mp ho)
      · cases List.mem_singleton.mp hneed
        exact ⟨.table n, List.mem_toFinset.mpr List.mem_cons_self, Obj.isRef_iff.mpr rfl⟩
  | addColumn t c =>
      cases hinverse
      refine undo_of_mentions hs h rfl rfl rfl rfl rfl rfl (fun o => Obj.isRef_iff.mpr)
        (fun o => Obj.mentions_of_refersToColumn) (fun o ho => ?_) fun need hneed => ?_
      · cases Finset.mem_singleton.mp ho
        exact ⟨rfl, Obj.mentions_iff.mpr (.inl rfl)⟩
      · cases List.mem_singleton.mp hneed
        exact ⟨_, Finset.mem_singleton_self _, Obj.isRef_iff.mpr rfl⟩
  | addForeignKey t n c t' c' actions =>
      cases hinverse
      refine undo_of_named h rfl rfl rfl rfl rfl rfl rfl (fun o hnamed => ?_) (fun o ho => ?_)
        (Finset.singleton_nonempty _)
      · exact decide_eq_true (Obj.constraintName_of_isForeignKey hnamed)
      · cases Finset.mem_singleton.mp ho
        exact decide_eq_true ⟨rfl, rfl⟩
  | createIndex n t columns =>
      cases hinverse
      refine undo_of_named h rfl rfl rfl rfl rfl rfl rfl (fun o hnamed => ?_) (fun o ho => ?_)
        (Finset.singleton_nonempty _)
      · exact decide_eq_true (Obj.relationName_of_isPlainIndex hnamed)
      · cases Finset.mem_singleton.mp ho
        exact decide_eq_true rfl
  | _ => cases hinverse

/-! ## Lists of statements -/

/-- A catalog with everything its objects rest on, and names apart. -/
structure Sound (s : Finset (Obj N D)) : Prop where
  closed : Closed s
  distinct : Distinct s

omit [DecidableEq N] [DecidableEq D] in
theorem sound_empty : Sound (∅ : Finset (Obj N D)) := ⟨closed_empty, distinct_empty⟩

/-- Statements in one transaction: one after the other, and all of them or none. -/
def exec (stmts : List (Stmt N D)) (s : Finset (Obj N D)) : Option (Finset (Obj N D)) :=
  Change.applyAll (stmts.map Stmt.change) s

variable {stmts stmts' : List (Stmt N D)}

@[simp] theorem exec_nil : exec ([] : List (Stmt N D)) s = some s := rfl

@[simp] theorem exec_cons (stmt : Stmt N D) (stmts : List (Stmt N D)) :
    exec (stmt :: stmts) s = (stmt.change.apply s).bind (exec stmts) := rfl

theorem exec_append (stmts stmts' : List (Stmt N D)) :
    exec (stmts ++ stmts') s = (exec stmts s).bind (exec stmts') := by
  rw [exec, List.map_append, Change.applyAll_append]
  rfl

/-- The same on a bag of objects. -/
def execBag (stmts : List (Stmt N D)) (m : Multiset (Obj N D)) : Option (Multiset (Obj N D)) :=
  Change.applyAllBag (stmts.map Stmt.change) m

/-- Statements can be computed on a bag of the objects there are. -/
theorem exec_toFinset (stmts : List (Stmt N D)) (m : Multiset (Obj N D)) :
    exec stmts m.toFinset = (execBag stmts m).map Multiset.toFinset :=
  Change.applyAll_toFinset _ m

/-- A sound catalog stays sound. -/
theorem sound_exec (hs : Sound s) (h : exec stmts s = some s') : Sound s' := by
  refine Change.applyAll_invariant (P := Sound) (fun c hc s s' hs h => ?_) hs h
  obtain ⟨stmt, -, rfl⟩ := List.mem_map.mp hc
  exact ⟨closed_apply hs.closed h, distinct_apply hs.distinct h⟩

/-- What no statement drops or renames stays. -/
theorem mem_exec {o : Obj N D} (ho : o ∈ s)
    (hkeeps : ∀ stmt ∈ stmts, stmt.change.drops o = false ∧ stmt.change.renames o = o)
    (h : exec stmts s = some s') : o ∈ s' := by
  refine Change.applyAll_invariant (P := fun s => o ∈ s) (fun c hc s s' ho h => ?_) ho h
  obtain ⟨stmt, hstmt, rfl⟩ := List.mem_map.mp hc
  obtain ⟨-, rfl⟩ := Change.apply_eq_some.mp h
  exact Change.mem_result_of_mem ho (hkeeps stmt hstmt).1 (hkeeps stmt hstmt).2

/-- The inverses of statements, the last first, if each has one. -/
def inverses : List (Stmt N D) → Option (List (Stmt N D))
  | [] => some []
  | stmt :: stmts => stmt.inverse.bind fun i => (inverses stmts).map (· ++ [i])

/-- **In a sound catalog, the inverses of creating statements take them all back.** -/
theorem inverses_undo (hs : Sound s) (hinverses : inverses stmts = some stmts')
    (h : exec stmts s = some s') : exec stmts' s' = some s := by
  induction stmts generalizing s stmts' with
  | nil =>
      cases hinverses
      cases h
      rfl
  | cons stmt stmts ih =>
      obtain ⟨i, hi, hrest⟩ := Option.bind_eq_some_iff.mp hinverses
      obtain ⟨is, his, rfl⟩ := Option.map_eq_some_iff.mp hrest
      obtain ⟨s₁, hfirst, hlater⟩ := Option.bind_eq_some_iff.mp h
      have hs₁ : Sound s₁ := ⟨closed_apply hs.closed hfirst, distinct_apply hs.distinct hfirst⟩
      rw [exec_append, ih hs₁ his hlater, Option.bind_some, exec_cons,
        inverse_undo hs.closed hi hfirst]
      rfl

/-! ## What leaves an index alone -/

/-- A statement is neither about an index of a name nor about the columns of its table. -/
def Stmt.spares (n t : N) : Stmt N D → Bool
  | createTable t₁ _ keys => decide (n ∉ t₁ :: keys.map Prod.fst)
  | dropTable t₁ => decide (t₁ ≠ t)
  | dropColumn t₁ _ => decide (t ≠ t₁)
  | renameColumn t₁ _ _ => decide (t ≠ t₁)
  | createIndex n₁ _ _ => decide (n ≠ n₁)
  | dropIndex n₁ => decide (n ≠ n₁)
  | _ => true

section Spares

variable {n t : N} {cs : List N}

omit [DecidableEq D] in
theorem rename_index_of_spares {t₁ c₁ c₂ : N} (h : t ≠ t₁) (types : N → N) (o : Obj N D) :
    o.rename types (fun t' => if t' = t₁ then renamed c₁ c₂ else id) = .index n t cs none ↔
      o = .index n t cs none := by
  cases o with
  | index n' t' cs' key =>
      simp only [Obj.rename, Obj.index.injEq]
      constructor
      · rintro ⟨rfl, rfl, hcs, rfl⟩
        rw [if_neg h, List.map_id] at hcs
        exact ⟨rfl, rfl, hcs, rfl⟩
      · rintro ⟨rfl, rfl, rfl, rfl⟩
        rw [if_neg h, List.map_id]
        exact ⟨rfl, rfl, rfl, rfl⟩
  | _ => simp [Obj.rename]

theorem refuses_of_spares (h : stmt.spares n t = true) :
    stmt.change.refuses (.index n t cs none) = false := by
  cases stmt <;> simp_all [Stmt.spares, Stmt.change, Obj.uses, Obj.typeName, Obj.relationName,
    Obj.constraintName, Obj.isRef, Obj.ref, Obj.refersTo, Obj.refersToColumn]

theorem needs_of_spares (h : stmt.spares n t = true) :
    ∀ need ∈ stmt.change.needs, need (.index n t cs none) = false := by
  have href : ∀ r, (Obj.index n t cs none : Obj N D).isRef r = false := fun _ => rfl
  have hrefs : ∀ rs : List (Ref N), ∀ need ∈ rs.map Obj.isRef,
      need (Obj.index n t cs none : Obj N D) = false := by
    intro rs need hneed
    obtain ⟨r, -, rfl⟩ := List.mem_map.mp hneed
    exact href r
  intro need hneed
  cases stmt with
  | createType n₁ labels => cases hneed
  | createTable n₁ columns keys =>
      obtain ⟨e, -, rfl⟩ := List.mem_map.mp hneed
      exact href (.type e)
  | addColumn t₁ c => exact hrefs _ need hneed
  | createIndex n₁ t₁ cs => exact hrefs _ need hneed
  | addForeignKey t₁ n₁ c t₂ c₂ actions =>
      rcases List.mem_cons.mp hneed with rfl | hneed
      · rfl
      · exact hrefs _ need hneed
  | dropIndex n₁ =>
      cases List.mem_singleton.mp hneed
      exact decide_eq_false (of_decide_eq_true h)
  | _ =>
      cases List.mem_singleton.mp hneed
      rfl

theorem drops_of_spares (h : stmt.spares n t = true) :
    stmt.change.drops (.index n t cs none) = false := by
  cases stmt <;> simp_all [Stmt.spares, Stmt.change, Obj.mentions, Obj.ref, Obj.uses,
    Obj.isForeignKey, Obj.isPlainIndex]

theorem adds_of_spares (h : stmt.spares n t = true) :
    Obj.index n t cs none ∉ stmt.change.adds := by
  cases stmt <;> simp_all [Stmt.spares, Stmt.change, tableObjs]

/-- Such a statement does not care about the index. -/
theorem ignores_of_spares (cs : List N) (h : stmt.spares n t = true) :
    stmt.change.Ignores (.index n t cs none) where
  refuses := refuses_of_spares h
  needs := needs_of_spares h
  drops := drops_of_spares h
  renames := by
    cases stmt with
    | renameType n₁ n₂ => simp [Stmt.change, Obj.rename]
    | renameColumn t₁ c c' => exact (rename_index_of_spares (of_decide_eq_true h) id _).mpr rfl
    | _ => rfl
  adds := adds_of_spares h
  only o := by
    cases stmt with
    | renameType n₁ n₂ => cases o <;> simp [Stmt.change, Obj.rename]
    | renameColumn t₁ c c' => exact (rename_index_of_spares (of_decide_eq_true h) id o).mp
    | _ => exact id

/-- Statements that spare two indexes can be run before or after one is taken for the other. -/
theorem exec_swap {cs' : List N} (h : ∀ stmt ∈ stmts, stmt.spares n t = true) :
    exec stmts (Change.swap (.index n t cs none) (.index n t cs' none) s)
      = (exec stmts s).map (Change.swap (.index n t cs none) (.index n t cs' none)) := by
  refine Change.applyAll_swap (fun c hc => ?_) fun c hc => ?_
  · obtain ⟨stmt, hstmt, rfl⟩ := List.mem_map.mp hc
    exact ignores_of_spares _ (h stmt hstmt)
  · obtain ⟨stmt, hstmt, rfl⟩ := List.mem_map.mp hc
    exact ignores_of_spares _ (h stmt hstmt)

/-- Dropping an index by its name is the same before and after its columns are changed. -/
theorem dropIndex_swap (cs' : List N) (h : Obj.index n t cs none ∈ s) :
    (Stmt.dropIndex n : Stmt N D).change.apply
        (Change.swap (.index n t cs none) (.index n t cs' none) s)
      = (Stmt.dropIndex n : Stmt N D).change.apply s := by
  have hnamed : ∀ cs : List N, (Obj.index n t cs none : Obj N D).isPlainIndex n = true :=
    fun cs => decide_eq_true rfl
  have hallowed : ∀ s : Finset (Obj N D), (∃ o ∈ s, o.isPlainIndex n = true) →
      (Stmt.dropIndex n : Stmt N D).change.Allowed s := by
    refine fun s hs => ⟨rfl, fun _ _ => rfl, fun need hneed => ?_⟩
    cases List.mem_singleton.mp hneed
    exact hs
  have hswapped := hallowed (Change.swap (.index n t cs none) (.index n t cs' none) s)
    ⟨_, Finset.mem_insert_self _ _, hnamed cs'⟩
  rw [Change.apply, Change.apply, if_pos hswapped, if_pos (hallowed s ⟨_, h, hnamed cs⟩),
    Change.result_swap_of_drops]
  · exact hnamed cs
  · exact hnamed cs'

end Spares

/-! ## An index in another's place -/

section Reindex

variable {n t : N} {cs : List N}

/-- What a catalog becomes when an index is dropped by its name and made anew. -/
theorem exec_reindex (h : exec [.dropIndex n, .createIndex n t cs] s = some s') :
    s' = insert (.index n t cs none) (s.filter fun o => o.isPlainIndex n = false) := by
  obtain ⟨s₁, hdrop, h⟩ := Option.bind_eq_some_iff.mp h
  obtain ⟨s₂, hcreate, hsame⟩ := Option.bind_eq_some_iff.mp h
  cases hsame
  obtain ⟨-, rfl⟩ := Change.apply_eq_some.mp hdrop
  obtain ⟨-, rfl⟩ := Change.apply_eq_some.mp hcreate
  ext o
  simp only [Change.mem_result, Stmt.change, Finset.mem_insert, Finset.mem_filter,
    Finset.mem_singleton, id_eq, Finset.notMem_empty, or_false, exists_eq_right, ← and_assoc]
  tauto

/-- Where names are apart, only one index has the name. -/
theorem filter_isPlainIndex (hs : Distinct s) (h : .index n t cs none ∈ s) :
    (s.filter fun o => o.isPlainIndex n = false) = s.erase (.index n t cs none) := by
  ext o
  rw [Finset.mem_filter, Finset.mem_erase, and_comm]
  refine and_congr_left fun ho => ?_
  constructor
  · rintro hplain rfl
    exact Bool.false_ne_true (hplain.symm.trans (decide_eq_true rfl))
  · intro hne
    rw [← Bool.not_eq_true]
    intro hplain
    exact hne (hs o ho _ h n (Obj.relationName_of_isPlainIndex hplain) rfl)

/-- Dropping an index and making it anew, and doing so again: the index last made takes the place
of the first. -/
theorem exec_reindex_twice {cs' cs'' : List N} {t' t'' : N} {s'' : Finset (Obj N D)}
    (hs : Distinct s) (h : .index n t cs none ∈ s)
    (hfirst : exec [.dropIndex n, .createIndex n t' cs'] s = some s')
    (hsecond : exec [.dropIndex n, .createIndex n t'' cs''] s' = some s'') :
    s'' = Change.swap (.index n t cs none) (.index n t'' cs'' none) s := by
  have hnamed : (Obj.index n t' cs' none : Obj N D).isPlainIndex n = true := decide_eq_true rfl
  rw [exec_reindex hsecond, exec_reindex hfirst, Finset.filter_insert, if_neg (by simp [hnamed]),
    Finset.filter_filter, Change.swap, ← filter_isPlainIndex hs h]
  simp only [and_self]

end Reindex

end Ddl
