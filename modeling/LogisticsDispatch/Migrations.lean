/-
The migrations of the schema, and what running and reverting them can come to.

Each migration is kept as the statements of its `up` and `down`. `migration:run` brings a database
up to the migrations of the code that is checked out (`release` of them, in the order of their
timestamps), all in one transaction; `migration:revert` runs the `down` of the one executed last.
Whether the rows allow a statement is left out: rows could only refuse one more.
-/
import LogisticsDispatch.Lib.Ddl
import LogisticsDispatch.Lib.Transition
import Mathlib.Tactic.IntervalCases

set_option autoImplicit false

namespace LogisticsDispatch

open Transition

/-! ## The migrations -/

/-- A schema: the objects of the database. -/
abbrev Schema := Finset (Ddl.Obj String String)

/-- A migration. -/
structure Migration where
  name : String
  up : List (Ddl.Stmt String String)
  down : List (Ddl.Stmt String String)

/-- A column that is of no enumerated type. -/
def plainColumn (name rest : String) : Ddl.Column String String := ⟨name, none, rest⟩

/-- A column of an enumerated type. -/
def enumColumn (name enum rest : String) : Ddl.Column String String := ⟨name, some enum, rest⟩

/-- The labels of a status of an order. -/
def statusLabels : List String :=
  ["pending", "driver_assigned", "driver_arriving", "picked_up", "in_transit", "delivered",
    "cancelled", "failed", "expired"]

/-- The labels of a type of vehicle. -/
def vehincleLabels : List String := ["bike", "car", "van", "truck"]

def createUsersTable : Migration where
  name := "CreateUsersTable1778528036860"
  up :=
    [.createType "users_role_enum" ["customer", "driver", "admin"],
      .createType "users_provider_enum" ["local", "google"],
      .createTable "users"
        [plainColumn "id" "uuid NOT NULL",
          plainColumn "name" "character varying(255) NOT NULL",
          plainColumn "email" "character varying NOT NULL",
          plainColumn "password_hash" "character varying",
          enumColumn "role" "users_role_enum" "NOT NULL DEFAULT 'customer'",
          plainColumn "google_id" "character varying",
          enumColumn "provider" "users_provider_enum" "NOT NULL DEFAULT 'local'",
          plainColumn "created_at" "TIMESTAMP NOT NULL DEFAULT now()",
          plainColumn "updated_at" "TIMESTAMP NOT NULL DEFAULT now()"]
        [("UQ_97672ac88f789774dd47f7c8be3", .unique, ["email"]),
          ("UQ_0bd5012aeb82628e07f6a1be53b", .unique, ["google_id"]),
          ("PK_a3ffb1c0c8416b9fc6f907b7433", .primaryKey, ["id"])]]
  down :=
    [.dropTable "users", .dropType "users_provider_enum", .dropType "users_role_enum"]

def addedEmailVerificationFieldsToUsersTable : Migration where
  name := "AddedEmailVerificationFieldsToUsersTable1778554139164"
  up :=
    [.addColumn "users" (plainColumn "is_email_verified" "boolean NOT NULL DEFAULT false"),
      .addColumn "users" (plainColumn "email_verification_token_hash" "character varying"),
      .addColumn "users" (plainColumn "email_verification_expires_at" "TIMESTAMP WITH TIME ZONE"),
      .addColumn "users" (plainColumn "email_verified_at" "TIMESTAMP WITH TIME ZONE")]
  down :=
    [.dropColumn "users" "email_verified_at",
      .dropColumn "users" "email_verification_expires_at",
      .dropColumn "users" "email_verification_token_hash",
      .dropColumn "users" "is_email_verified"]

def createDriversTable : Migration where
  name := "CreateDriversTable1778711761946"
  up :=
    [.createType "drivers_vehincle_type_enum" vehincleLabels,
      .createTable "drivers"
        [plainColumn "id" "uuid NOT NULL",
          plainColumn "user_id" "uuid NOT NULL",
          enumColumn "vehincle_type" "drivers_vehincle_type_enum" "NOT NULL",
          plainColumn "license_number" "character varying NOT NULL",
          plainColumn "online_status" "boolean NOT NULL DEFAULT false",
          plainColumn "current_latitude" "numeric(10,7)",
          plainColumn "current_longitude" "numeric(10,7)",
          plainColumn "rating" "numeric(3,2) NOT NULL DEFAULT '5'",
          plainColumn "is_suspended" "boolean NOT NULL DEFAULT false",
          plainColumn "created_by" "uuid",
          plainColumn "created_at" "TIMESTAMP NOT NULL DEFAULT now()"]
        [("UQ_47543bd8e5e11a094ded9a56e98", .unique, ["license_number"]),
          ("REL_8e224f1b8f05ace7cfc7c76d03", .unique, ["user_id"]),
          ("PK_92ab3fb69e566d3eb0cae896047", .primaryKey, ["id"])],
      .addForeignKey "drivers" "FK_8e224f1b8f05ace7cfc7c76d03b" "user_id" "users" "id"
        "ON DELETE NO ACTION ON UPDATE NO ACTION",
      .addForeignKey "drivers" "FK_8f09a7f6e652466af236cc6b9d2" "created_by" "users" "id"
        "ON DELETE NO ACTION ON UPDATE NO ACTION"]
  down :=
    [.dropForeignKey "drivers" "FK_8f09a7f6e652466af236cc6b9d2",
      .dropForeignKey "drivers" "FK_8e224f1b8f05ace7cfc7c76d03b",
      .dropTable "drivers",
      .dropType "drivers_vehincle_type_enum"]

def addedPasswordResetFieldsToUsersTable : Migration where
  name := "AddedPasswordResetFieldsToUsersTable1778856340053"
  up :=
    [.addColumn "users" (plainColumn "password_reset_token_hash" "character varying"),
      .addColumn "users" (plainColumn "password_reset_expires_at" "TIMESTAMP WITH TIME ZONE")]
  down :=
    [.dropColumn "users" "password_reset_expires_at",
      .dropColumn "users" "password_reset_token_hash"]

def createOrderAndOrderStausHistoryTable : Migration where
  name := "CreateOrderAndOrderStausHistoryTable1779186568563"
  up :=
    [.createType "order_status_history_previous_status_enum" statusLabels,
      .createType "order_status_history_new_status_enum" statusLabels,
      .createTable "order_status_history"
        [plainColumn "id" "uuid NOT NULL",
          plainColumn "order_id" "uuid NOT NULL",
          enumColumn "previous_status" "order_status_history_previous_status_enum" "",
          enumColumn "new_status" "order_status_history_new_status_enum" "NOT NULL",
          plainColumn "actor_id" "character varying NOT NULL",
          plainColumn "created_at" "TIMESTAMP NOT NULL DEFAULT now()"]
        [("PK_e6c66d853f155531985fc4f6ec8", .primaryKey, ["id"])],
      .createIndex "idx_order_status_history_order_id" "order_status_history" ["order_id"],
      .createType "orders_order_status_enum" statusLabels,
      .createTable "orders"
        [plainColumn "id" "uuid NOT NULL",
          plainColumn "customer_id" "uuid NOT NULL",
          plainColumn "pickup_address" "text NOT NULL",
          plainColumn "delivery_address" "text NOT NULL",
          plainColumn "pickup_latitude" "numeric(10,7) NOT NULL",
          plainColumn "pickup_longitude" "numeric(10,7) NOT NULL",
          plainColumn "delivery_latitude" "numeric(10,7) NOT NULL",
          plainColumn "delivery_longitude" "numeric(10,7) NOT NULL",
          enumColumn "order_status" "orders_order_status_enum" "NOT NULL DEFAULT 'pending'",
          plainColumn "assigned_driver_id" "uuid",
          plainColumn "estimated_price" "numeric(10,2)",
          plainColumn "dispatch_attempts" "integer NOT NULL DEFAULT '0'",
          plainColumn "attempted_driver_ids" "text NOT NULL DEFAULT ''",
          plainColumn "version" "integer NOT NULL DEFAULT '1'",
          plainColumn "created_at" "TIMESTAMP NOT NULL DEFAULT now()",
          plainColumn "updated_at" "TIMESTAMP NOT NULL DEFAULT now()",
          plainColumn "deleted_at" "TIMESTAMP"]
        [("PK_710e2d4957aa5878dfe94e4ac2f", .primaryKey, ["id"])],
      .createIndex "idx_orders_created_at" "orders" ["created_at"],
      .createIndex "idx_orders_status" "orders" ["order_status"],
      .createIndex "idx_orders_assigned_driver_id" "orders" ["assigned_driver_id"],
      .createIndex "idx_orders_customer_id" "orders" ["customer_id"],
      .addForeignKey "order_status_history" "FK_1ca7d5228cf9dc589b60243933c" "order_id"
        "orders" "id" "ON DELETE RESTRICT ON UPDATE NO ACTION",
      .addForeignKey "orders" "FK_772d0ce0473ac2ccfa26060dbe9" "customer_id" "users" "id"
        "ON DELETE NO ACTION ON UPDATE NO ACTION",
      .addForeignKey "orders" "FK_f7e3aa789f0edeea79656a47426" "assigned_driver_id" "drivers" "id"
        "ON DELETE NO ACTION ON UPDATE NO ACTION"]
  down :=
    [.dropForeignKey "orders" "FK_f7e3aa789f0edeea79656a47426",
      .dropForeignKey "orders" "FK_772d0ce0473ac2ccfa26060dbe9",
      .dropForeignKey "order_status_history" "FK_1ca7d5228cf9dc589b60243933c",
      .dropIndex "idx_orders_customer_id",
      .dropIndex "idx_orders_assigned_driver_id",
      .dropIndex "idx_orders_status",
      .dropIndex "idx_orders_created_at",
      .dropTable "orders",
      .dropType "orders_order_status_enum",
      .dropIndex "idx_order_status_history_order_id",
      .dropTable "order_status_history",
      .dropType "order_status_history_new_status_enum",
      .dropType "order_status_history_previous_status_enum"]

def addedIndexToDriverEntityAndUpdateColumnField : Migration where
  name := "AddedIndexToDriverEntityAndUpdateColumnField1779187883590"
  up :=
    [.addColumn "drivers" (plainColumn "updated_at" "TIMESTAMP NOT NULL DEFAULT now()"),
      .createIndex "idx_drivers_dispatch" "drivers"
        ["online_status", "is_suspended", "current_latitude", "current_longitude"],
      .createIndex "idx_drivers_is_suspended" "drivers" ["is_suspended"],
      .createIndex "idx_drivers_online_status" "drivers" ["online_status"],
      .createIndex "idx_drivers_user_id" "drivers" ["user_id"]]
  down :=
    [.dropIndex "idx_drivers_user_id",
      .dropIndex "idx_drivers_online_status",
      .dropIndex "idx_drivers_is_suspended",
      .dropIndex "idx_drivers_dispatch",
      .dropColumn "drivers" "updated_at"]

def addedIndexToUsersEntityTable : Migration where
  name := "AddedIndexToUsersEntityTable1779188150542"
  up :=
    [.createIndex "idx_users_email_provider" "users" ["email", "provider"],
      .createIndex "idx_users_google_id" "users" ["google_id"],
      .createIndex "idx_users_role" "users" ["role"]]
  down :=
    [.dropIndex "idx_users_role",
      .dropIndex "idx_users_google_id",
      .dropIndex "idx_users_email_provider"]

def addedOrderAndVehincleTypeToOrdersTable : Migration where
  name := "AddedOrderAndVehincleTypeToOrdersTable1779190469874"
  up :=
    [.createType "orders_order_type_enum" ["person", "package", "goods_small", "goods_large"],
      .addColumn "orders" (enumColumn "order_type" "orders_order_type_enum" "NOT NULL"),
      .createType "orders_vehincle_type_enum" vehincleLabels,
      .addColumn "orders" (enumColumn "vehincle_type" "orders_vehincle_type_enum" "NOT NULL")]
  down :=
    [.dropColumn "orders" "vehincle_type",
      .dropType "orders_vehincle_type_enum",
      .dropColumn "orders" "order_type",
      .dropType "orders_order_type_enum"]

def addedVehincleTypeIndexToDriversTable : Migration where
  name := "AddedVehincleTypeIndexToDriversTable1779191308641"
  up :=
    [.dropIndex "idx_drivers_dispatch",
      .createIndex "idx_drivers_dispatch" "drivers"
        ["online_status", "is_suspended", "vehincle_type", "current_latitude",
          "current_longitude"]]
  -- the columns in another order than the index had before
  down :=
    [.dropIndex "idx_drivers_dispatch",
      .createIndex "idx_drivers_dispatch" "drivers"
        ["current_latitude", "current_longitude", "is_suspended", "online_status"]]

def addedNoteColumnToOrderTable : Migration where
  name := "AddedNoteColumnToOrderTable1779192256798"
  up := [.addColumn "orders" (plainColumn "notes" "text")]
  down := [.dropColumn "orders" "notes"]

def fixedTypoErrorInColumns : Migration where
  name := "FixedTypoErrorInColumns1779702914190"
  up :=
    [.renameColumn "orders" "vehicle_type" "vehincle_type",
      .renameType "orders_vehicle_type_enum" "orders_vehincle_type_enum"]
  down :=
    [.renameType "orders_vehincle_type_enum" "orders_vehicle_type_enum",
      .renameColumn "orders" "vehincle_type" "vehicle_type"]

def createOutboxEventTable : Migration where
  name := "CreateOutboxEventTable1779785219211"
  up :=
    [.createTable "outbox_events"
        [plainColumn "id" "uuid NOT NULL",
          plainColumn "event_type" "character varying NOT NULL",
          plainColumn "payload" "jsonb NOT NULL",
          plainColumn "status" "character varying(32) NOT NULL",
          plainColumn "attempts" "integer NOT NULL DEFAULT '0'",
          plainColumn "last_error" "text",
          plainColumn "created_at" "TIMESTAMP NOT NULL DEFAULT now()",
          plainColumn "processed_at" "TIMESTAMP"]
        [("PK_6689a16c00d09b8089f6237f1d2", .primaryKey, ["id"])]]
  down := [.dropTable "outbox_events"]

/-- All migrations, in the order of their timestamps. -/
def migrations : List Migration :=
  [createUsersTable, addedEmailVerificationFieldsToUsersTable, createDriversTable,
    addedPasswordResetFieldsToUsersTable, createOrderAndOrderStausHistoryTable,
    addedIndexToDriverEntityAndUpdateColumnField, addedIndexToUsersEntityTable,
    addedOrderAndVehincleTypeToOrdersTable, addedVehincleTypeIndexToDriversTable,
    addedNoteColumnToOrderTable, fixedTypoErrorInColumns, createOutboxEventTable]

/-! ## Running and reverting -/

/-- A database: its schema, and the names of the migrations executed, the latest first. -/
structure Migrated where
  schema : Schema
  executed : List String

/-- The migrations of the code checked out that the database has not executed. -/
def pendingMigrations (release : ℕ) (executed : List String) : List Migration :=
  (migrations.take release).filter fun m => decide (m.name ∉ executed)

/-- `migration:run`. -/
def runMigrations (release : ℕ) (db : Migrated) : Option Migrated :=
  let pending := pendingMigrations release db.executed
  (Ddl.exec (pending.flatMap Migration.up) db.schema).map fun schema =>
    ⟨schema, (pending.map Migration.name).reverse ++ db.executed⟩

/-- `migration:revert`. It fails when the code checked out does not have the migration. -/
def revertMigration (release : ℕ) (db : Migrated) : Option Migrated :=
  match db.executed with
  | [] => some db
  | name :: executed =>
      ((migrations.take release).find? fun m => decide (m.name = name)).bind fun m =>
        (Ddl.exec m.down db.schema).map fun schema => ⟨schema, executed⟩

/-- What is done to a database. -/
inductive MigrationAction
  | run (release : ℕ)
  | revert (release : ℕ)

/-- The databases that come from one with a schema and nothing executed. -/
def migrating (S : Schema) : System Migrated MigrationAction where
  Init db := db = ⟨S, []⟩
  step db act :=
    match act with
    | .run release => runMigrations release db
    | .revert release => revertMigration release db

/-! ## What is pending

The names executed are those of the first migrations (`executedNames k`), and what is pending is the
stretch from there to the release. -/

/-- The names of the first `k` migrations, the latest first. -/
def executedNames (k : ℕ) : List String := ((migrations.take k).map Migration.name).reverse

/-- The statements of the migrations from the `k`-th up to the `r`-th. -/
def upStatements (k r : ℕ) : List (Ddl.Stmt String String) :=
  ((migrations.take r).drop k).flatMap Migration.up

theorem migrations_names_nodup : (migrations.map Migration.name).Nodup := by decide +kernel

/-- What is left of a list without its first elements, where no two have one name. -/
theorem filter_notMem_take {α β : Type*} [DecidableEq β] {f : α → β} {l : List α}
    (hl : (l.map f).Nodup) (k r : ℕ) :
    (l.take r).filter (fun x => decide (f x ∉ (l.take k).map f)) = (l.take r).drop k := by
  induction l generalizing k r with
  | nil => simp
  | cons a l ih =>
      obtain ⟨ha, hl⟩ := List.nodup_cons.mp hl
      cases r with
      | zero => simp
      | succ r =>
          cases k with
          | zero => simp
          | succ k =>
              rw [List.take_succ_cons, List.take_succ_cons, List.map_cons, List.drop_succ_cons,
                ← ih hl k r, List.filter_cons_of_neg (by simp)]
              refine List.filter_congr fun x hx => ?_
              have hne : f x ≠ f a := by
                intro hfx
                exact ha (hfx ▸ List.mem_map_of_mem (List.mem_of_mem_take hx))
              simp [hne]

theorem pendingMigrations_executedNames (k r : ℕ) :
    pendingMigrations r (executedNames k) = (migrations.take r).drop k := by
  rw [pendingMigrations, ← filter_notMem_take migrations_names_nodup]
  refine List.filter_congr fun m _ => ?_
  simp only [executedNames, List.mem_reverse]

theorem upStatements_append {k j r : ℕ} (hkj : k ≤ j) (hjr : j ≤ r) :
    upStatements k r = upStatements k j ++ upStatements j r := by
  rw [upStatements, upStatements, upStatements, ← List.flatMap_append]
  have hfirst : (migrations.take j).drop k = ((migrations.take r).drop k).take (j - k) := by
    rw [List.drop_take, List.drop_take, List.take_take, min_eq_left (by omega)]
  have hrest : (migrations.take r).drop j = ((migrations.take r).drop k).drop (j - k) := by
    rw [List.drop_drop, Nat.add_sub_cancel' hkj]
  rw [hfirst, hrest, List.take_append_drop]

/-- A smaller stretch has statements of a larger one only. -/
theorem mem_upStatements {k k' r r' : ℕ} (hk : k ≤ k') (hr : r' ≤ r)
    {stmt : Ddl.Stmt String String} (h : stmt ∈ upStatements k' r') : stmt ∈ upStatements k r := by
  obtain ⟨m, hm, hstmt⟩ := List.mem_flatMap.mp h
  refine List.mem_flatMap.mpr ⟨m, ?_, hstmt⟩
  have hm := List.drop_subset_drop_left _ hk hm
  rw [List.drop_take] at hm ⊢
  exact List.take_subset_take_left _ (by omega) hm

section Steps

variable {k r : ℕ} {S S' : Schema} {db : Migrated} {m : Migration}

theorem upStatements_of_le (h : r ≤ k) : upStatements k r = [] := by
  rw [upStatements, List.drop_eq_nil_of_le, List.flatMap_nil]
  rw [List.length_take]
  omega

theorem upStatements_succ (hm : migrations[k]? = some m) : upStatements k (k + 1) = m.up := by
  obtain ⟨hk, rfl⟩ := List.getElem?_eq_some_iff.mp hm
  rw [upStatements, List.drop_take, Nat.add_sub_cancel_left, List.drop_eq_getElem_cons hk,
    List.take_succ_cons, List.take_zero, List.flatMap_singleton]

theorem executedNames_succ (hm : migrations[k]? = some m) :
    executedNames (k + 1) = m.name :: executedNames k := by
  rw [executedNames, List.take_add_one, hm, Option.toList_some, List.map_append, List.reverse_append]
  rfl

/-- A run executes what is pending, and the names grow by those. -/
theorem runMigrations_executedNames (k r : ℕ) (S : Schema) :
    runMigrations r ⟨S, executedNames k⟩
      = (Ddl.exec (upStatements k r) S).map fun S' => ⟨S', executedNames (max k r)⟩ := by
  have hnames : (((migrations.take r).drop k).map Migration.name).reverse ++ executedNames k
      = executedNames (max k r) := by
    rw [executedNames, executedNames, ← List.reverse_append, ← List.map_append]
    rcases Nat.le_total k r with hkr | hrk
    · have htake : migrations.take k = (migrations.take r).take k := by
        rw [List.take_take, min_eq_left hkr]
      rw [htake, List.take_append_drop, max_eq_right hkr]
    · rw [List.drop_eq_nil_of_le (by rw [List.length_take]; omega), List.append_nil,
        max_eq_left hrk]
  simp only [runMigrations, pendingMigrations_executedNames, hnames]
  rfl

/-- What a run that succeeds has done. -/
theorem runMigrations_cases (h : runMigrations r ⟨S, executedNames k⟩ = some db) :
    ∃ S', Ddl.exec (upStatements k r) S = some S' ∧ db = ⟨S', executedNames (max k r)⟩ := by
  rw [runMigrations_executedNames] at h
  obtain ⟨S', hexec, rfl⟩ := Option.map_eq_some_iff.mp h
  exact ⟨S', hexec, rfl⟩

/-- What is found by the name of a migration is the migration. -/
theorem eq_of_find_name {m' : Migration} (hm : m ∈ migrations)
    (h : (migrations.take r).find? (fun m' => decide (m'.name = m.name)) = some m') : m' = m := by
  have hname : m'.name = m.name := by simpa using List.find?_some h
  exact List.inj_on_of_nodup_map migrations_names_nodup
    (List.mem_of_mem_take (List.mem_of_find?_eq_some h)) hm hname

/-- A revert runs the `down` of the migration executed last, if the code checked out has it. -/
theorem revertMigration_executedNames (hm : migrations[k]? = some m) (hk : k < r) (S : Schema) :
    revertMigration r ⟨S, executedNames (k + 1)⟩
      = (Ddl.exec m.down S).map fun S' => ⟨S', executedNames k⟩ := by
  have hmem : m ∈ migrations.take r :=
    List.mem_of_getElem? (by rwa [List.getElem?_take_of_lt hk])
  have hsome : ((migrations.take r).find? fun m' => decide (m'.name = m.name)).isSome = true :=
    List.find?_isSome.mpr ⟨m, hmem, decide_eq_true rfl⟩
  obtain ⟨m', hfound⟩ := Option.isSome_iff_exists.mp hsome
  obtain rfl := eq_of_find_name (List.mem_of_mem_take hmem) hfound
  rw [executedNames_succ hm]
  simp only [revertMigration, hfound, Option.bind_some]

/-- What a revert that succeeds has done. -/
theorem revertMigration_cases (hm : migrations[k]? = some m)
    (h : revertMigration r ⟨S, executedNames (k + 1)⟩ = some db) :
    ∃ S', Ddl.exec m.down S = some S' ∧ db = ⟨S', executedNames k⟩ := by
  rw [executedNames_succ hm] at h
  obtain ⟨m', hfound, hdown⟩ := Option.bind_eq_some_iff.mp h
  obtain ⟨S', hexec, rfl⟩ := Option.map_eq_some_iff.mp hdown
  obtain rfl := eq_of_find_name (List.mem_of_getElem? hm) hfound
  exact ⟨S', hexec, rfl⟩

end Steps

/-! ## The column that is there twice

`AddedOrderAndVehincleTypeToOrdersTable` gives the orders a column `vehincle_type`, and
`FixedTypoErrorInColumns` renames `vehicle_type` to the same name. -/

/-- The column that `AddedOrderAndVehincleTypeToOrdersTable` adds. -/
def vehincleColumn : Ddl.Obj String String :=
  .column "orders" (enumColumn "vehincle_type" "orders_vehincle_type_enum" "NOT NULL")

section Vehincle

variable {k r : ℕ} {S S' : Schema} {db : Migrated}

/-- The two migrations after it leave the column where it is, executed or reverted. -/
theorem vehincleColumn_kept {stmt : Ddl.Stmt String String}
    (h : stmt ∈ upStatements 8 10 ++ addedVehincleTypeIndexToDriversTable.down ++
      addedNoteColumnToOrderTable.down) :
    stmt.change.drops vehincleColumn = false ∧ stmt.change.renames vehincleColumn = vehincleColumn := by
  revert stmt
  decide

/-- The column is there once eight migrations are executed. -/
theorem mem_of_upStatements (hr : 8 ≤ r) (hr' : r ≤ 10)
    (hS : 8 ≤ k → vehincleColumn ∈ S) (h : Ddl.exec (upStatements k r) S = some S') :
    vehincleColumn ∈ S' := by
  by_cases hk : 8 ≤ k
  · refine Ddl.mem_exec (hS hk) (fun stmt hstmt => vehincleColumn_kept ?_) h
    exact List.mem_append_left _ (List.mem_append_left _ (mem_upStatements hk hr' hstmt))
  -- the last statement of the eighth adds it
  · rw [upStatements_append (by omega) hr, Ddl.exec_append] at h
    obtain ⟨S₁, hadd, hrest⟩ := Option.bind_eq_some_iff.mp h
    have hlast : upStatements k 8 = upStatements k 7 ++
        (addedOrderAndVehincleTypeToOrdersTable.up.take 3 ++
          [.addColumn "orders"
            (enumColumn "vehincle_type" "orders_vehincle_type_enum" "NOT NULL")]) := by
      rw [upStatements_append (k := k) (j := 7) (by omega) (by omega)]
      rfl
    rw [hlast, ← List.append_assoc, Ddl.exec_append] at hadd
    obtain ⟨S₂, -, hadd⟩ := Option.bind_eq_some_iff.mp hadd
    obtain ⟨S₃, hadd, hsame⟩ := Option.bind_eq_some_iff.mp hadd
    cases hsame
    obtain ⟨-, rfl⟩ := Change.apply_eq_some.mp hadd
    refine Ddl.mem_exec (Change.mem_result_of_adds (Finset.mem_singleton_self _))
      (fun stmt hstmt => vehincleColumn_kept ?_) hrest
    exact List.mem_append_left _ (List.mem_append_left _ (mem_upStatements le_rfl hr' hstmt))

/-- With the column there, the renaming is refused. -/
theorem exec_fixedTypo (h : vehincleColumn ∈ S) (stmts : List (Ddl.Stmt String String)) :
    Ddl.exec (fixedTypoErrorInColumns.up ++ stmts) S = none := by
  have hrefused : ¬ (Ddl.Stmt.renameColumn "orders" "vehicle_type" "vehincle_type" :
      Ddl.Stmt String String).change.Allowed S := by
    intro hallowed
    have hfree := hallowed.2.1 vehincleColumn h
    have htaken : Ddl.Obj.isRef (.column "orders" "vehincle_type") vehincleColumn = true :=
      Ddl.Obj.isRef_iff.mpr rfl
    exact Bool.false_ne_true (hfree.symm.trans htaken)
  rw [fixedTypoErrorInColumns, List.cons_append, Ddl.exec_cons, Change.apply, if_neg hrefused,
    Option.bind_none]

/-- What the migrations executed come to: the first ten at most, and the column once there are
eight. -/
def Stuck (db : Migrated) : Prop :=
  ∃ k ≤ 10, db.executed = executedNames k ∧ (8 ≤ k → vehincleColumn ∈ db.schema)

/-- A run past the first ten migrations fails. -/
theorem Stuck.run_eq_none (hdb : Stuck db) (hr : 10 < r) : runMigrations r db = none := by
  obtain ⟨S, names⟩ := db
  obtain ⟨k, hk, rfl, hcolumn⟩ := hdb
  rw [Option.eq_none_iff_forall_ne_some]
  intro db' h
  obtain ⟨S', hexec, -⟩ := runMigrations_cases h
  rw [upStatements_append (j := 10) (by omega) (by omega), Ddl.exec_append] at hexec
  obtain ⟨S₁, hten, hexec⟩ := Option.bind_eq_some_iff.mp hexec
  have hthere : vehincleColumn ∈ S₁ := mem_of_upStatements (by omega) le_rfl hcolumn hten
  rw [upStatements_append (k := 10) (j := 11) (by omega) (by omega),
    upStatements_succ (m := fixedTypoErrorInColumns) rfl, exec_fixedTypo hthere] at hexec
  cases hexec

theorem Stuck.step {act : MigrationAction} {db' : Migrated} (hdb : Stuck db)
    (h : (migrating S).step db act = some db') : Stuck db' := by
  cases act with
  | run r =>
      by_cases hr : 10 < r
      · rw [show (migrating S).step db (.run r) = runMigrations r db from rfl,
          hdb.run_eq_none hr] at h
        cases h
      · obtain ⟨S₁, names⟩ := db
        obtain ⟨k, hk, rfl, hcolumn⟩ := hdb
        obtain ⟨S', hexec, rfl⟩ := runMigrations_cases h
        refine ⟨max k r, by omega, rfl, fun hmax => ?_⟩
        by_cases hkr : r ≤ k
        · rw [upStatements_of_le hkr] at hexec
          cases hexec
          exact hcolumn (by omega)
        · exact mem_of_upStatements (by omega) (by omega) hcolumn hexec
  | revert r =>
      obtain ⟨S₁, names⟩ := db
      obtain ⟨k, hk, rfl, hcolumn⟩ := hdb
      cases k with
      | zero =>
          cases h
          exact ⟨0, by omega, rfl, fun h => by omega⟩
      | succ k =>
          obtain ⟨m, hm⟩ : ∃ m, migrations[k]? = some m :=
            ⟨_, List.getElem?_eq_getElem (by simp [migrations]; omega)⟩
          obtain ⟨S', hexec, rfl⟩ := revertMigration_cases hm h
          refine ⟨k, by omega, rfl, fun hk8 => ?_⟩
          refine Ddl.mem_exec (hcolumn (by omega)) (fun stmt hstmt => vehincleColumn_kept ?_) hexec
          -- only the ninth or the tenth can have been reverted
          obtain rfl | rfl : k = 8 ∨ k = 9 := by omega
          · cases hm
            exact List.mem_append_left _ (List.mem_append_right _ hstmt)
          · cases hm
            exact List.mem_append_right _ hstmt

theorem stuck_of_reachable (hdb : Reachable (migrating S) db) : Stuck db := by
  refine hdb.invariant (fun db hinit => ?_) fun db act db' _ hstuck h => hstuck.step h
  cases hinit
  exact ⟨0, by omega, rfl, fun h => by omega⟩

/-- **The migrations cannot be brought past the first ten.** Whatever the schema to begin with, and
whatever releases are run and reverted in between, a database that starts with nothing executed
never executes `FixedTypoErrorInColumns` or `CreateOutboxEventTable`, and every run of a release
that has them fails. -/
theorem migrations_stuck (hdb : Reachable (migrating S) db) :
    (fixedTypoErrorInColumns.name ∉ db.executed ∧ createOutboxEventTable.name ∉ db.executed) ∧
      ∀ release, 10 < release → runMigrations release db = none := by
  have hstuck := stuck_of_reachable hdb
  refine ⟨?_, fun release => hstuck.run_eq_none⟩
  obtain ⟨k, hk, hnames, -⟩ := hstuck
  have hfirst : ∀ name ∈ db.executed, name ∈ (migrations.take 10).map Migration.name := by
    intro name hname
    rw [hnames, executedNames, List.mem_reverse] at hname
    obtain ⟨m, hm, rfl⟩ := List.mem_map.mp hname
    exact List.mem_map_of_mem (List.take_subset_take_left _ hk hm)
  constructor
  · intro hname
    have := hfirst _ hname
    revert this
    decide +kernel
  · intro hname
    have := hfirst _ hname
    revert this
    decide +kernel

theorem migrations_stuck_users :
    ∃ db, runMigrations 2 ⟨∅, []⟩ = some db ∧ db.executed = executedNames 2 ∧
      runMigrations 12 db = none := by
  have hrun : (runMigrations 2 ⟨∅, []⟩).isSome = true := by decide +kernel
  obtain ⟨db, hdb⟩ := Option.isSome_iff_exists.mp hrun
  have hreach : Reachable (migrating ∅) db :=
    (Reachable.init (M := migrating ∅) (s := ⟨∅, []⟩) rfl).step (a := .run 2) hdb
  refine ⟨db, hdb, ?_, (migrations_stuck hreach).2 12 (by decide)⟩
  obtain ⟨S', -, rfl⟩ := runMigrations_cases (k := 0) hdb
  rfl

end Vehincle

/-! ## The index that comes back with other columns

Every `down` takes back its `up`, except that of `AddedVehincleTypeIndexToDriversTable`, which makes
the index `idx_drivers_dispatch` over the same columns as before in another order. -/

/-- The index `AddedIndexToDriverEntityAndUpdateColumnField` creates. -/
def dispatchIndex : Ddl.Obj String String :=
  .index "idx_drivers_dispatch" "drivers"
    ["online_status", "is_suspended", "current_latitude", "current_longitude"] none

/-- What reverting `AddedVehincleTypeIndexToDriversTable` leaves in its place. -/
def revertedDispatchIndex : Ddl.Obj String String :=
  .index "idx_drivers_dispatch" "drivers"
    ["current_latitude", "current_longitude", "is_suspended", "online_status"] none

section Index

variable {k r : ℕ} {S S₀ S₁ S' : Schema} {db : Migrated} {m : Migration}

theorem spares_dispatchIndex {stmt : Ddl.Stmt String String}
    (h : stmt ∈ addedIndexToDriverEntityAndUpdateColumnField.up.drop 2 ++ upStatements 6 8 ++
      addedIndexToDriverEntityAndUpdateColumnField.down.take 3 ++
      addedIndexToUsersEntityTable.down ++ addedOrderAndVehincleTypeToOrdersTable.down) :
    stmt.spares "idx_drivers_dispatch" "drivers" = true := by
  revert stmt
  decide

/-- Those statements leave the index where it is. -/
theorem dispatchIndex_kept {stmts : List (Ddl.Stmt String String)}
    (hstmts : ∀ stmt ∈ stmts, stmt.spares "idx_drivers_dispatch" "drivers" = true)
    (hS : dispatchIndex ∈ S) (h : Ddl.exec stmts S = some S') : dispatchIndex ∈ S' := by
  refine Ddl.mem_exec hS (fun stmt hstmt => ?_) h
  have hignores := Ddl.ignores_of_spares
    ["online_status", "is_suspended", "current_latitude", "current_longitude"] (hstmts stmt hstmt)
  exact ⟨hignores.drops, hignores.renames⟩

/-- The index is there with six, seven or eight migrations executed. -/
theorem dispatchIndex_mem (hk : 6 ≤ k) (hk' : k ≤ 8)
    (h : Ddl.exec (upStatements 0 k) S = some S₁) : dispatchIndex ∈ S₁ := by
  have hsplit : upStatements 0 k = (upStatements 0 5 ++
      addedIndexToDriverEntityAndUpdateColumnField.up.take 1) ++
        (.createIndex "idx_drivers_dispatch" "drivers"
            ["online_status", "is_suspended", "current_latitude", "current_longitude"] ::
          (addedIndexToDriverEntityAndUpdateColumnField.up.drop 2 ++ upStatements 6 k)) := by
    rw [upStatements_append (k := 0) (j := 6) (by omega) hk,
      upStatements_append (k := 0) (j := 5) (by omega) (by omega)]
    rfl
  rw [hsplit, Ddl.exec_append] at h
  obtain ⟨S₂, -, h⟩ := Option.bind_eq_some_iff.mp h
  rw [Ddl.exec_cons] at h
  obtain ⟨S₃, hadd, h⟩ := Option.bind_eq_some_iff.mp h
  obtain ⟨-, rfl⟩ := Change.apply_eq_some.mp hadd
  have hadded : dispatchIndex ∈ (Ddl.Stmt.createIndex "idx_drivers_dispatch" "drivers"
      ["online_status", "is_suspended", "current_latitude", "current_longitude"] :
        Ddl.Stmt String String).change.result S₂ :=
    Change.mem_result_of_adds (Finset.mem_singleton_self _)
  refine dispatchIndex_kept (fun stmt hstmt => spares_dispatchIndex ?_) hadded h
  rcases List.mem_append.mp hstmt with hstmt | hstmt
  · simp [hstmt]
  · simp [mem_upStatements le_rfl hk' hstmt]

/-- The migrations up to the eighth do not care which of the two indexes there is. -/
theorem exec_upStatements_swap (hk : 6 ≤ k) (hr : r ≤ 8) :
    Ddl.exec (upStatements k r) (Change.swap dispatchIndex revertedDispatchIndex S₁)
      = (Ddl.exec (upStatements k r) S₁).map (Change.swap dispatchIndex revertedDispatchIndex) := by
  refine Ddl.exec_swap fun stmt hstmt => spares_dispatchIndex ?_
  simp [mem_upStatements hk hr hstmt]

/-- After the ninth there is no difference. -/
theorem exec_upStatements_swap_of_lt (hk : 6 ≤ k) (hk' : k ≤ 8) (hr : 8 < r)
    (h : Ddl.exec (upStatements 0 k) S = some S₁) :
    Ddl.exec (upStatements k r) (Change.swap dispatchIndex revertedDispatchIndex S₁)
      = Ddl.exec (upStatements k r) S₁ := by
  have hninth : upStatements 8 r = addedVehincleTypeIndexToDriversTable.up ++ upStatements 9 r := by
    rw [upStatements_append (k := 8) (j := 9) (by omega) hr]
    rfl
  rw [upStatements_append hk' hr.le, Ddl.exec_append, Ddl.exec_append,
    exec_upStatements_swap hk le_rfl, hninth]
  cases hS₂ : Ddl.exec (upStatements k 8) S₁ with
  | none => rfl
  | some S₂ =>
      have hmem : dispatchIndex ∈ S₂ := by
        refine dispatchIndex_mem (k := 8) (S := S) (by omega) le_rfl ?_
        rw [upStatements_append (Nat.zero_le k) hk', Ddl.exec_append, h, Option.bind_some, hS₂]
      rw [Option.map_some, Option.bind_some, Option.bind_some,
        addedVehincleTypeIndexToDriversTable, List.cons_append, Ddl.exec_cons, Ddl.exec_cons]
      congr 1
      exact Ddl.dropIndex_swap _ hmem

/-- Reverting the ninth migration takes one index for the other. -/
theorem revert_ninth (hS₀ : Ddl.Sound S₀) (hmem : dispatchIndex ∈ S₀)
    (hup : Ddl.exec addedVehincleTypeIndexToDriversTable.up S₀ = some S₁)
    (hdown : Ddl.exec addedVehincleTypeIndexToDriversTable.down S₁ = some S') :
    S' = Change.swap dispatchIndex revertedDispatchIndex S₀ :=
  Ddl.exec_reindex_twice hS₀.distinct hmem hup hdown

/-- Every other migration is reverted by the inverses of its statements. -/
theorem inverses_up (hk : k < 8 ∨ k = 9) (hm : migrations[k]? = some m) :
    Ddl.inverses m.up = some m.down := by
  have hk : k ≤ 9 := by omega
  interval_cases k
  all_goals first | omega | (cases hm; rfl)

/-- The schema that the first `k` migrations make of a sound one, except for the one index. -/
def BuiltBy (S : Schema) (k : ℕ) (S' : Schema) : Prop :=
  ∃ S₁, Ddl.exec (upStatements 0 k) S = some S₁ ∧
    (S' = S₁ ∨ (6 ≤ k ∧ k ≤ 8) ∧ S' = Change.swap dispatchIndex revertedDispatchIndex S₁)

/-- Executing what is pending. -/
theorem BuiltBy.up (hbuilt : BuiltBy S k S₀) (hkr : k ≤ r)
    (h : Ddl.exec (upStatements k r) S₀ = some S') : BuiltBy S r S' := by
  obtain ⟨S₁, hfirst, hS₀⟩ := hbuilt
  have hall : Ddl.exec (upStatements 0 r) S = Ddl.exec (upStatements k r) S₁ := by
    rw [upStatements_append (Nat.zero_le k) hkr, Ddl.exec_append, hfirst, Option.bind_some]
  rcases hS₀ with rfl | ⟨⟨hk, hk'⟩, rfl⟩
  · exact ⟨S', hall.trans h, .inl rfl⟩
  · by_cases hr : r ≤ 8
    · rw [exec_upStatements_swap hk hr] at h
      obtain ⟨S₂, hS₂, rfl⟩ := Option.map_eq_some_iff.mp h
      exact ⟨S₂, hall.trans hS₂, .inr ⟨⟨by omega, hr⟩, rfl⟩⟩
    · rw [exec_upStatements_swap_of_lt hk hk' (by omega) hfirst] at h
      exact ⟨S', hall.trans h, .inl rfl⟩

/-- Reverting from the state that `up` has led to. -/
theorem builtBy_of_down (hS : Ddl.Sound S) (hk : k ≤ 9) (hm : migrations[k]? = some m)
    (hfirst : Ddl.exec (upStatements 0 k) S = some S₀) (hup : Ddl.exec m.up S₀ = some S₁)
    (h : Ddl.exec m.down S₁ = some S') : BuiltBy S k S' := by
  have hS₀ : Ddl.Sound S₀ := Ddl.sound_exec hS hfirst
  by_cases hk8 : k = 8
  · subst hk8
    cases hm
    have hmem : dispatchIndex ∈ S₀ := dispatchIndex_mem (by omega) le_rfl hfirst
    exact ⟨S₀, hfirst, .inr ⟨by omega, revert_ninth hS₀ hmem hup h⟩⟩
  · have hback := Ddl.inverses_undo hS₀ (inverses_up (by omega) hm) hup
    exact ⟨S₀, hfirst, .inl (Option.some.inj (h.symm.trans hback))⟩

/-- The `down` of the sixth migration drops the index, whichever it is. -/
theorem down_sixth_swap (hmem : dispatchIndex ∈ S₁)
    (hback : Ddl.exec addedIndexToDriverEntityAndUpdateColumnField.down S₁ = some S₀) :
    Ddl.exec addedIndexToDriverEntityAndUpdateColumnField.down
      (Change.swap dispatchIndex revertedDispatchIndex S₁) = some S₀ := by
  have hsplit : addedIndexToDriverEntityAndUpdateColumnField.down =
      addedIndexToDriverEntityAndUpdateColumnField.down.take 3 ++
        [.dropIndex "idx_drivers_dispatch", .dropColumn "drivers" "updated_at"] := rfl
  have hspares : ∀ stmt ∈ addedIndexToDriverEntityAndUpdateColumnField.down.take 3,
      stmt.spares "idx_drivers_dispatch" "drivers" = true := by
    intro stmt hstmt
    exact spares_dispatchIndex (by simp [hstmt])
  have hswap : Ddl.exec (addedIndexToDriverEntityAndUpdateColumnField.down.take 3)
      (Change.swap dispatchIndex revertedDispatchIndex S₁)
        = (Ddl.exec (addedIndexToDriverEntityAndUpdateColumnField.down.take 3) S₁).map
          (Change.swap dispatchIndex revertedDispatchIndex) := Ddl.exec_swap hspares
  rw [hsplit, Ddl.exec_append] at hback ⊢
  obtain ⟨S₂, hS₂, hback⟩ := Option.bind_eq_some_iff.mp hback
  have hmem₂ : dispatchIndex ∈ S₂ := dispatchIndex_kept hspares hmem hS₂
  have hdrop := Ddl.dropIndex_swap
    ["current_latitude", "current_longitude", "is_suspended", "online_status"] hmem₂
  rw [hswap, hS₂, Option.map_some, Option.bind_some, Ddl.exec_cons]
  rw [Ddl.exec_cons] at hback
  exact (congrArg (Option.bind · _) hdrop).trans hback

/-- Reverting from where the index has its columns in the other order. -/
theorem builtBy_of_down_swap (hS : Ddl.Sound S) (hk : 5 ≤ k) (hk' : k ≤ 7)
    (hm : migrations[k]? = some m) (hfirst : Ddl.exec (upStatements 0 k) S = some S₀)
    (hup : Ddl.exec m.up S₀ = some S₁) (hmem : dispatchIndex ∈ S₁)
    (h : Ddl.exec m.down (Change.swap dispatchIndex revertedDispatchIndex S₁) = some S') :
    BuiltBy S k S' := by
  have hback := Ddl.inverses_undo (Ddl.sound_exec hS hfirst) (inverses_up (by omega) hm) hup
  by_cases hk5 : k = 5
  · subst hk5
    cases hm
    rw [down_sixth_swap hmem hback] at h
    exact ⟨S₀, hfirst, .inl (Option.some.inj h).symm⟩
  · have hswap : Ddl.exec m.down (Change.swap dispatchIndex revertedDispatchIndex S₁)
        = (Ddl.exec m.down S₁).map (Change.swap dispatchIndex revertedDispatchIndex) := by
      refine Ddl.exec_swap fun stmt hstmt => spares_dispatchIndex ?_
      obtain rfl | rfl : k = 6 ∨ k = 7 := by omega
      · cases hm
        simp [hstmt]
      · cases hm
        simp [hstmt]
    rw [hswap, hback] at h
    exact ⟨S₀, hfirst, .inr ⟨by omega, (Option.some.inj h).symm⟩⟩

/-- Reverting the migration executed last. -/
theorem BuiltBy.down (hS : Ddl.Sound S) (hk : k ≤ 9) (hm : migrations[k]? = some m)
    (hbuilt : BuiltBy S (k + 1) S₀) (h : Ddl.exec m.down S₀ = some S') : BuiltBy S k S' := by
  obtain ⟨S₁, hall, hS₀⟩ := hbuilt
  have hsplit := hall
  rw [upStatements_append (Nat.zero_le k) (Nat.le_succ k), Ddl.exec_append,
    upStatements_succ hm] at hsplit
  obtain ⟨S₂, hfirst, hup⟩ := Option.bind_eq_some_iff.mp hsplit
  rcases hS₀ with rfl | ⟨hk', rfl⟩
  · exact builtBy_of_down hS hk hm hfirst hup h
  · have hmem : dispatchIndex ∈ S₁ := dispatchIndex_mem (by omega) (by omega) hall
    exact builtBy_of_down_swap hS (by omega) (by omega) hm hfirst hup hmem h

/-- Where a run and then a revert lead. -/
theorem reachable_run_revert {db' : Migrated} (hrun : runMigrations r ⟨S, []⟩ = some db)
    (hrevert : revertMigration r db = some db') : Reachable (migrating S) db' := by
  have hfirst : Reachable (migrating S) ⟨S, []⟩ := .init rfl
  have hsecond : Reachable (migrating S) db := hfirst.step (a := .run r) hrun
  exact hsecond.step (a := .revert r) hrevert

/-- The first nine migrations can be made of nothing, and the ninth taken back. -/
theorem nine_and_back : ∃ S₁ S₂, Ddl.exec (upStatements 0 9) ∅ = some S₁ ∧
    Ddl.exec addedVehincleTypeIndexToDriversTable.down S₁ = some S₂ := by
  -- on bags, since the objects of a set would all be compared at every statement
  have hbag : ((Ddl.execBag (upStatements 0 9) 0).bind
      (Ddl.execBag addedVehincleTypeIndexToDriversTable.down)).isSome = true := by decide +kernel
  obtain ⟨m₂, hm₂⟩ := Option.isSome_iff_exists.mp hbag
  obtain ⟨m₁, hup, hdown⟩ := Option.bind_eq_some_iff.mp hm₂
  refine ⟨m₁.toFinset, m₂.toFinset, ?_, ?_⟩
  · rw [← Multiset.toFinset_zero, Ddl.exec_toFinset, hup, Option.map_some]
  · rw [Ddl.exec_toFinset, hdown, Option.map_some]

/-- **What a database has executed says what its schema is**: the first migrations, up to the one
executed last, make it of the schema there was to begin with, whatever was run and reverted in
between. Only with six, seven or eight executed can one index have the columns in the order in
which reverting the ninth leaves them. -/
theorem schema_of_executed (hS : Ddl.Sound S) (hdb : Reachable (migrating S) db) :
    ∃ k ≤ 10, db.executed = executedNames k ∧ ∃ S₁, Ddl.exec (upStatements 0 k) S = some S₁ ∧
      (db.schema = S₁ ∨ (6 ≤ k ∧ k ≤ 8) ∧
        db.schema = Change.swap dispatchIndex revertedDispatchIndex S₁) := by
  refine hdb.invariant (P := fun db => ∃ k ≤ 10, db.executed = executedNames k ∧
    BuiltBy S k db.schema) (fun db hinit => ?_) fun db act db' hreach hbuilt h => ?_
  · cases hinit
    exact ⟨0, by omega, rfl, S, rfl, .inl rfl⟩
  · have hstuck := stuck_of_reachable hreach
    obtain ⟨S₀, names⟩ := db
    obtain ⟨k, hk, rfl, hbuilt⟩ := hbuilt
    cases act with
    | run r =>
        have hr : r ≤ 10 := by
          by_contra hr
          exact Option.some_ne_none _ (h.symm.trans (hstuck.run_eq_none (by omega)))
        obtain ⟨S', hexec, rfl⟩ := runMigrations_cases h
        refine ⟨max k r, by omega, rfl, ?_⟩
        rcases Nat.le_total k r with hkr | hrk
        · rw [max_eq_right hkr]
          exact hbuilt.up hkr hexec
        · rw [upStatements_of_le hrk] at hexec
          cases hexec
          rw [max_eq_left hrk]
          exact hbuilt
    | revert r =>
        cases k with
        | zero =>
            cases h
            exact ⟨0, by omega, rfl, hbuilt⟩
        | succ k =>
            obtain ⟨m, hm⟩ : ∃ m, migrations[k]? = some m :=
              ⟨_, List.getElem?_eq_getElem (by simp [migrations]; omega)⟩
            obtain ⟨S', hexec, rfl⟩ := revertMigration_cases hm h
            exact ⟨k, by omega, rfl, hbuilt.down hS (by omega) hm hexec⟩

/-- Nine migrations are run and one is reverted: the index is over its columns in the other order. -/
theorem schema_of_executed_users :
    ∃ db db', runMigrations 9 ⟨∅, []⟩ = some db ∧ revertMigration 9 db = some db' ∧
      db'.executed = executedNames 8 ∧ revertedDispatchIndex ∈ db'.schema ∧
      ∃ k ≤ 10, db'.executed = executedNames k ∧ ∃ S₁, Ddl.exec (upStatements 0 k) ∅ = some S₁ ∧
        (db'.schema = S₁ ∨ (6 ≤ k ∧ k ≤ 8) ∧
          db'.schema = Change.swap dispatchIndex revertedDispatchIndex S₁) := by
  obtain ⟨S₁, S₂, hup, hdown⟩ := nine_and_back
  have hrun : runMigrations 9 ⟨∅, []⟩ = some ⟨S₁, executedNames 9⟩ := by
    have h := runMigrations_executedNames 0 9 ∅
    rwa [hup, Nat.zero_max, Option.map_some] at h
  have hrevert : revertMigration 9 ⟨S₁, executedNames 9⟩ = some ⟨S₂, executedNames 8⟩ := by
    have h := revertMigration_executedNames (k := 8) (r := 9) rfl (by omega) S₁
    rwa [hdown, Option.map_some] at h
  have hreach : Reachable (migrating ∅) ⟨S₂, executedNames 8⟩ :=
    reachable_run_revert hrun hrevert
  -- the ninth drops the index and makes it anew, and so does its `down`
  have hindex : revertedDispatchIndex ∈ S₂ := by
    rw [upStatements_append (j := 8) (by omega) (by omega), Ddl.exec_append,
      upStatements_succ (m := addedVehincleTypeIndexToDriversTable) rfl] at hup
    obtain ⟨S₀, hfirst, hninth⟩ := Option.bind_eq_some_iff.mp hup
    have hmem : dispatchIndex ∈ S₀ := dispatchIndex_mem (by omega) le_rfl hfirst
    rw [revert_ninth (Ddl.sound_exec Ddl.sound_empty hfirst) hmem hninth hdown]
    exact Finset.mem_insert_self _ _
  exact ⟨_, _, hrun, hrevert, rfl, hindex, schema_of_executed Ddl.sound_empty hreach⟩

end Index

end LogisticsDispatch
