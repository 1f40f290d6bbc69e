import Coordination.Proofs.Json.RoundTrip
import Coordination.Proofs.Settings.Written

/-!
Settings and pool configurations that are written and read back. Reading what was written never
fails, and texts, counts and limits come back whatever they are; only timeouts are narrowed, to the
64-bit number of whole milliseconds that is written for them. The pool that settings ask for is
narrowed as they are.
-/

namespace Coordination

namespace Pool.Config

/-- What is left of a configuration that is written and read back. -/
def asWritten (c : Config) : Config :=
  { c with blockTimeout := c.blockTimeout.asWritten, boostTimeout := c.boostTimeout.asWritten }

theorem asWritten_eq_iff {c : Config} :
    c.asWritten = c ↔ c.blockTimeout.Whole ∧ c.boostTimeout.Whole := by
  constructor
  · intro h
    rw [← h]
    exact ⟨c.blockTimeout.whole_asWritten, c.boostTimeout.whole_asWritten⟩
  · rintro ⟨hblock, hboost⟩
    rw [asWritten, hblock.asWritten_eq, hboost.asWritten_eq]

/-- A limit is read back, and so is that there is none. -/
theorem nullable_limit (limit : Option UInt64) :
    Json.Document.nullable Json.Document.word?
      (Json.Document.ofJson (Json.ofOption (fun n => .nat n.toNat) limit)) = some limit := by
  cases limit with
  | none => rfl
  | some n =>
      have hword := Json.Document.word?_ofJson n
      simp only [Json.ofOption, Json.nat, Json.Document.ofJson_int] at hword ⊢
      rw [Json.Document.nullable, hword]
      · rfl
      · intro h
        cases h

theorem ofDocument?_toJson (c : Config) :
    ofDocument? (Json.Document.ofJson c.toJson) = some c.asWritten := by
  have hfields : (Json.Document.ofJson c.toJson).fields? .complete fieldNames = some [
      some (Json.Document.ofJson (.nat c.queueLength.toNat)),
      some (Json.Document.ofJson (.nat c.batchLength.toNat)),
      some (Json.Document.ofJson (.nat c.blockTimeout.writtenMillis)),
      some (Json.Document.ofJson (.nat c.boostTimeout.writtenMillis)),
      some (Json.Document.ofJson (.nat c.boostWorkers.toNat)),
      some (Json.Document.ofJson (Json.ofOption (fun n => .nat n.toNat) c.maxWorkers))] := rfl
  rw [ofDocument?, hfields]
  simp only [bind, Option.bind_some, Json.Document.required, Json.Document.optional,
    Json.Document.word?_ofJson, Json.Document.millis?_ofJson, nullable_limit, Option.map_some,
    Option.join_some]
  rfl

/-- What is written for a configuration is read back as what is left of it. -/
theorem parse_written (c : Config) : parse c.toJson.render = some c.asWritten := by
  rw [parse, Json.Document.parse_render, Option.bind_some, ofDocument?_toJson]

end Pool.Config

namespace Settings

/-- What is written for settings is read back as what is left of them. -/
theorem parse_written (s : Settings) : parse s.toJson.render = some s.asWritten := by
  rw [parse, Json.Document.parse_render, Option.bind_some, ofDocument?_asWritten]

/-- The timeouts of settings are those of their pool, and nothing else of it hangs on them. -/
theorem poolConfig_timeouts (s : Settings) (block boost : Duration) :
    ({ s with blockTimeout := block, boostTimeout := boost } : Settings).poolConfig =
      { s.poolConfig with blockTimeout := block, boostTimeout := boost } := rfl

theorem poolConfig_asWritten (s : Settings) : s.asWritten.poolConfig = s.poolConfig.asWritten :=
  s.poolConfig_timeouts s.blockTimeout.asWritten s.boostTimeout.asWritten

/-- All settings and all configurations can be read back from what is written for them, with each
timeout narrowed to its whole milliseconds modulo 2^64. So they come back as they were just if both
timeouts are whole milliseconds below 2^64. And the pool that the settings ask for once they have
come back is the one that comes back when that pool is written itself. -/
theorem round_trip_narrows_timeouts :
    (∀ s : Settings,
      parse s.toJson.render = some
        { s with
          blockTimeout := .ofMillis (s.blockTimeout.millis % wordSize)
          boostTimeout := .ofMillis (s.boostTimeout.millis % wordSize) } ∧
      (parse s.toJson.render = some s ↔ s.blockTimeout.Whole ∧ s.boostTimeout.Whole) ∧
      Pool.Config.parse s.poolConfig.toJson.render = (parse s.toJson.render).map poolConfig) ∧
    ∀ c : Pool.Config,
      Pool.Config.parse c.toJson.render = some
        { c with
          blockTimeout := .ofMillis (c.blockTimeout.millis % wordSize)
          boostTimeout := .ofMillis (c.boostTimeout.millis % wordSize) } ∧
      (Pool.Config.parse c.toJson.render = some c ↔
        c.blockTimeout.Whole ∧ c.boostTimeout.Whole) := by
  constructor
  · intro s
    refine ⟨s.parse_written, ?_, ?_⟩
    · rw [parse_written, Option.some_inj, asWritten_eq_iff]
      exact ⟨fun h => ⟨h.block, h.boost⟩, fun h => ⟨h.1, h.2⟩⟩
    · rw [parse_written, Pool.Config.parse_written, Option.map_some, poolConfig_asWritten]
  · intro c
    refine ⟨c.parse_written, ?_⟩
    rw [Pool.Config.parse_written, Option.some_inj, Pool.Config.asWritten_eq_iff]

end Settings

end Coordination
