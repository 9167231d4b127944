import SkillRegistry.Wire.Base64
import SkillRegistry.Wire.Parse
import SkillRegistry.Structure.Merkle
import SkillRegistry.Structure.HashChain
import SkillRegistry.Structure.Table
import SkillRegistry.Structure.Transaction
import SkillRegistry.Structure.Latest
import SkillRegistry.Platform
import SkillRegistry.Signing
import SkillRegistry.Protocol
import SkillRegistry.Frontier
import SkillRegistry.Store.Write
import SkillRegistry.Checkpoint
import SkillRegistry.Backup
import SkillRegistry.Run
import SkillRegistry.Failure
import SkillRegistry.HighWater
import SkillRegistry.Idempotency
import SkillRegistry.Cancel
import SkillRegistry.Readiness
import SkillRegistry.Canonical
import SkillRegistry.Grammar
import SkillRegistry.Decoding
import SkillRegistry.Export
import SkillRegistry.ImportIntegrity
import SkillRegistry.ImportPath
import SkillRegistry.NoopImport
import SkillRegistry.RoundTrip
import SkillRegistry.Store.Health
import SkillRegistry.Store.Forged
import SkillRegistry.App.Answered
import SkillRegistry.App.Follow
import SkillRegistry.App.Authentic
import SkillRegistry.App.Post
import SkillRegistry.Verdicts
import SkillRegistry.Committed
import SkillRegistry.Equivocation
import SkillRegistry.Startup
import SkillRegistry.Depth
import SkillRegistry.Limits
import SkillRegistry.Auth
import SkillRegistry.Interrupted
import SkillRegistry.Restore
