import ContextDesk.Lib.ConnString

/-!
# Connections to a read-only database

`connectionString` writes the parameters of a Postgres connection. It is the rendering of the list
`connectionParams`, so a reader of `key=value` texts gets back exactly these keys, whatever the
host, the database, the user and the password are (`connectionString_parsed`).
-/

namespace ContextDesk.SqlRo

open Lib

structure PostgresConnectConfig where
  host : List Char
  port : UInt16
  database : List Char
  user : List Char
  sslmode : List Char
  password : Option (List Char)
  timeoutMs : UInt64
  deriving DecidableEq

def escapeConnVal (v : List Char) : List Char := ConnString.quoteValue v

/-- The mode that the driver accepts in a connection string. -/
def postgresDsnSslmode (sslmode : List Char) : List Char :=
  let mode := Text.asciiLower (Text.trim sslmode)
  if mode = "disable".toList then "disable".toList
  else if mode = "prefer".toList then "prefer".toList
  else if mode ∈ ["require".toList, "verify-ca".toList, "verify-full".toList] then
    "require".toList
  else "prefer".toList

/-- The seconds of `connect_timeout`. -/
def connectTimeout (timeoutMs : UInt64) : Nat := max (timeoutMs.toNat / 1000) 1

def connectionString (cfg : PostgresConnectConfig) : List Char :=
  let s := "host=".toList ++ escapeConnVal cfg.host ++ " port=".toList ++
    Nat.toDigits 10 cfg.port.toNat ++ " dbname=".toList ++ escapeConnVal cfg.database ++
    " user=".toList ++ escapeConnVal cfg.user ++ " connect_timeout=".toList ++
    Nat.toDigits 10 (connectTimeout cfg.timeoutMs)
  let s := match cfg.password with
    | some pw => s ++ (" password=".toList ++ escapeConnVal pw)
    | none => s
  s ++ (" sslmode=".toList ++ postgresDsnSslmode cfg.sslmode)

/-- The keys of a connection and their values. -/
def connectionParams (cfg : PostgresConnectConfig) : List ConnString.Param :=
  [("host".toList, cfg.host), ("port".toList, Nat.toDigits 10 cfg.port.toNat),
    ("dbname".toList, cfg.database), ("user".toList, cfg.user),
    ("connect_timeout".toList, Nat.toDigits 10 (connectTimeout cfg.timeoutMs))] ++
  cfg.password.toList.map (fun pw => ("password".toList, pw)) ++
  [("sslmode".toList, postgresDsnSslmode cfg.sslmode)]

/-! ## Values that need no quotes -/

theorem quoteValue_plain {v : List Char} (hne : v ≠ []) (hv : ∀ c ∈ v, ConnString.isSpecial c = false) :
    ConnString.quoteValue v = v := by
  unfold ConnString.quoteValue
  refine if_neg ?_
  simp only [Bool.or_eq_true, List.isEmpty_iff, List.any_eq_true, not_or, not_exists, not_and,
    Bool.not_eq_true]
  exact ⟨hne, hv⟩

theorem isSpecial_digit {c : Char} (h : c.isDigit = true) : ConnString.isSpecial c = false := by
  have hrange : 48 ≤ c.toNat ∧ c.toNat ≤ 57 := by
    simpa [Char.isDigit, UInt32.le_iff_toNat_le] using h
  have hspace : Text.isWhitespace c = false := by
    unfold Text.isWhitespace
    simp only [Bool.or_eq_false_iff, Bool.and_eq_false_iff, decide_eq_false_iff_not,
      beq_eq_false_iff_ne]
    omega
  simp only [ConnString.isSpecial, hspace, Bool.false_or, Bool.or_eq_false_iff,
    beq_eq_false_iff_ne]
  constructor
  · rintro rfl
    revert hrange
    decide
  · rintro rfl
    revert hrange
    decide

theorem quoteValue_digits (n : Nat) :
    ConnString.quoteValue (Nat.toDigits 10 n) = Nat.toDigits 10 n :=
  quoteValue_plain (Nat.toDigits_ne_nil) fun _ hc =>
    isSpecial_digit (Nat.isDigit_of_mem_toDigits (by decide) (by decide) hc)

theorem quoteValue_sslmode (sslmode : List Char) :
    ConnString.quoteValue (postgresDsnSslmode sslmode) = postgresDsnSslmode sslmode := by
  unfold postgresDsnSslmode
  dsimp only
  split
  · decide
  split
  · decide
  split <;> decide

/-! ## The connection string -/

variable (cfg : PostgresConnectConfig)

theorem connectionString_eq : connectionString cfg = ConnString.render (connectionParams cfg) := by
  unfold connectionString connectionParams escapeConnVal
  cases cfg.password with
  | none =>
    simp [ConnString.render, quoteValue_digits, quoteValue_sslmode]
  | some pw =>
    simp [ConnString.render, quoteValue_digits, quoteValue_sslmode]

/-- The keys of a connection, with or without a password. -/
def connectionKeys (password : Bool) : List (List Char) :=
  ["host".toList, "port".toList, "dbname".toList, "user".toList, "connect_timeout".toList] ++
    (if password then ["password".toList] else []) ++ ["sslmode".toList]

theorem connectionParams_keys :
    (connectionParams cfg).map Prod.fst = connectionKeys cfg.password.isSome := by
  unfold connectionParams connectionKeys
  cases cfg.password <;> rfl

theorem connectionKeys_valid (b : Bool) :
    (∀ key ∈ connectionKeys b, ConnString.IsKey key) ∧ (connectionKeys b).Nodup := by
  have hkeys : ∀ b, (connectionKeys b).all (fun key => !key.isEmpty && key.all ConnString.isKeyChar) =
      true ∧ (connectionKeys b).Nodup := by decide +kernel
  obtain ⟨hkey, hnodup⟩ := hkeys b
  refine ⟨fun key hmem => ?_, hnodup⟩
  have := List.all_eq_true.mp hkey key hmem
  rw [Bool.and_eq_true, List.all_eq_true, Bool.not_eq_true', List.isEmpty_eq_false_iff] at this
  exact this

theorem parse_connectionString :
    ConnString.parse (connectionString cfg) = .ok (connectionParams cfg) := by
  rw [connectionString_eq]
  refine ConnString.parse_render fun p hp => ?_
  refine (connectionKeys_valid cfg.password.isSome).1 p.1 ?_
  rw [← connectionParams_keys]
  exact List.mem_map_of_mem hp

/-- The connection string is read as its parameters, each once and with its value. -/
theorem connectionString_parsed (cfg : PostgresConnectConfig) :
    ConnString.parse (connectionString cfg) = .ok (connectionParams cfg) ∧
      ((connectionParams cfg).map Prod.fst).Nodup := by
  refine ⟨parse_connectionString cfg, ?_⟩
  rw [connectionParams_keys]
  exact (connectionKeys_valid cfg.password.isSome).2

/-- A connection whose certificates are verified. -/
def verifiedConfig : PostgresConnectConfig where
  host := "db.internal".toList
  port := 5432
  database := "logs".toList
  user := "o'reader".toList
  sslmode := "verify-full".toList
  password := some "a b\\c".toList
  timeoutMs := 5000

/-- The driver is told `require`, not the configured mode. -/
theorem verified_mode_mapped : ∃ params,
    ConnString.parse (connectionString verifiedConfig) = .ok params ∧
    ("sslmode".toList, verifiedConfig.sslmode) ∉ params ∧
    ("sslmode".toList, "require".toList) ∈ params :=
  ⟨connectionParams verifiedConfig, parse_connectionString _, by decide +kernel, by decide +kernel⟩

end ContextDesk.SqlRo
