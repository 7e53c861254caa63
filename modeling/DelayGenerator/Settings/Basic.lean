/-
This file holds the settings of the program, their defaults and the rules they must keep. All times
are milliseconds.
-/

namespace DelayGenerator

structure SerialSettings where
  port : String
  baudRate : Nat
  writeTimeout : Nat
  replyTimeout : Nat
  maxLineBytes : Nat
  replyQueueCapacity : Nat
  deriving DecidableEq

structure Settings where
  logLevel : String
  serial : SerialSettings
  /-- How often a directive is tried until it is acknowledged. -/
  attempts : Nat
  tickPeriod : Nat
  grace : Nat
  deriving DecidableEq

def SerialSettings.defaults : SerialSettings where
  port := "/dev/ttyUSB0"
  baudRate := 115200
  writeTimeout := 20
  replyTimeout := 200
  maxLineBytes := 4096
  replyQueueCapacity := 64

def Settings.defaults : Settings where
  logLevel := "info"
  serial := .defaults
  attempts := 10
  tickPeriod := 1000
  grace := 500

/-- A rule that settings break. -/
inductive SettingsProblem where
  | logLevel (level : String)
  | baudRate
  | timeouts (write reply : Nat)
  | maxLineBytes
  | replyQueueCapacity
  | tickPeriod
  deriving DecidableEq

namespace Settings

def logLevels : List String := ["trace", "debug", "info", "warn", "error"]

/-- The first rule that the settings break. -/
def problem? (settings : Settings) : Option SettingsProblem :=
  if !logLevels.contains settings.logLevel then some (.logLevel settings.logLevel)
  else if settings.serial.baudRate == 0 then some .baudRate
  else if settings.serial.writeTimeout == 0 || settings.serial.replyTimeout == 0 then
    some (.timeouts settings.serial.writeTimeout settings.serial.replyTimeout)
  else if settings.serial.maxLineBytes == 0 then some .maxLineBytes
  else if settings.serial.replyQueueCapacity == 0 then some .replyQueueCapacity
  else if settings.tickPeriod == 0 then some .tickPeriod
  else none

end Settings

namespace SettingsProblem

def detail : SettingsProblem → String
  | logLevel level =>
    "Invalid log_level '" ++ level ++ "'. Must be one of: "
      ++ ", ".intercalate Settings.logLevels
  | baudRate => "serial.baud_rate must be non-zero"
  | timeouts write reply =>
    "serial timeouts must be non-zero (write " ++ toString write ++ " ms, reply "
      ++ toString reply ++ " ms)"
  | maxLineBytes => "serial.max_line_bytes must be non-zero"
  | replyQueueCapacity => "serial.reply_queue_capacity must be non-zero"
  | tickPeriod => "tick.period_ms must be non-zero"

end SettingsProblem

end DelayGenerator
