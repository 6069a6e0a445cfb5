import LayeredConfig.Fault

/-! Work that writes log lines. The lines written before a fault are kept. -/

namespace LayeredConfig

inductive Severity where
  | debug
  | info
  | warning
  | error
  | critical
deriving DecidableEq, Repr

namespace Severity

def all : List Severity := [debug, info, warning, error, critical]

def name : Severity → Text
  | debug => "DEBUG"
  | info => "INFO"
  | warning => "WARNING"
  | error => "ERROR"
  | critical => "CRITICAL"

def rank : Severity → Nat
  | debug => 10
  | info => 20
  | warning => 30
  | error => 40
  | critical => 50

def ofName? (name : Text) : Option Severity := all.find? fun s => s.name = name

end Severity

inductive Channel where
  | configuration
  | roles
  | loader
  | check
  | program
deriving DecidableEq, Repr

def Channel.name : Channel → Text
  | configuration => "fluo.config.configuration"
  | roles => "fluo.config.roles"
  | loader => "fluo.config.loader"
  | check => "fluo.cli.check"
  | program => "fluo.cli.main"

structure LogLine where
  channel : Channel
  severity : Severity
  message : Text
deriving DecidableEq, Repr

structure Logged (α : Type) where
  lines : List LogLine
  result : Except Fault α

namespace Logged

def bind {α β : Type} (x : Logged α) (f : α → Logged β) : Logged β :=
  match x.result with
  | .ok a => ⟨x.lines ++ (f a).lines, (f a).result⟩
  | .error fault => ⟨x.lines, .error fault⟩

instance : Monad Logged where
  pure a := ⟨[], .ok a⟩
  bind := bind

/-- Work that writes no line. -/
def quiet {α : Type} (r : Except Fault α) : Logged α := ⟨[], r⟩

def write (channel : Channel) (severity : Severity) (message : Text) : Logged Unit :=
  ⟨[⟨channel, severity, message⟩], .ok ()⟩

@[simp] theorem pure_lines {α : Type} (a : α) : (pure a : Logged α).lines = [] := rfl

@[simp] theorem pure_result {α : Type} (a : α) : (pure a : Logged α).result = .ok a := rfl

theorem bind_ok {α β : Type} {x : Logged α} {f : α → Logged β} {a : α} (h : x.result = .ok a) :
    x >>= f = ⟨x.lines ++ (f a).lines, (f a).result⟩ := by
  change bind x f = _
  simp only [bind, h]

theorem bind_error {α β : Type} {x : Logged α} {f : α → Logged β} {fault : Fault}
    (h : x.result = .error fault) : x >>= f = ⟨x.lines, .error fault⟩ := by
  change bind x f = _
  simp only [bind, h]

theorem bind_result {α β : Type} (x : Logged α) (f : α → Logged β) :
    (x >>= f).result = x.result >>= fun a => (f a).result := by
  cases hx : x.result with
  | error fault =>
    rw [bind_error hx]
    rfl
  | ok a =>
    rw [bind_ok hx]
    rfl

theorem bind_result_eq_ok_iff {α β : Type} {x : Logged α} {f : α → Logged β} {b : β} :
    (x >>= f).result = .ok b ↔ ∃ a, x.result = .ok a ∧ (f a).result = .ok b := by
  cases hx : x.result with
  | error fault =>
    rw [bind_error hx]
    simp
  | ok a =>
    rw [bind_ok hx]
    simp

theorem exists_bind_result_iff {α β : Type} {x : Logged α} {f : α → Logged β} :
    (∃ b, (x >>= f).result = .ok b) ↔ ∃ a, x.result = .ok a ∧ ∃ b, (f a).result = .ok b := by
  simp only [bind_result_eq_ok_iff]
  exact ⟨fun ⟨b, a, h, hb⟩ => ⟨a, h, b, hb⟩, fun ⟨a, h, b, hb⟩ => ⟨b, a, h, hb⟩⟩

end Logged

end LayeredConfig
