import Mmorpg.Kafka.ClaimAcker
import Mmorpg.Handoff.Travel
import Mmorpg.Handoff.FenceCodec
import Mmorpg.AssetOp.Classify
import Mmorpg.AssetOp.Canonical
import Mmorpg.AssetOp.Validate
import Mmorpg.AssetOp.PartialMark
import Mmorpg.Currency.Wallet
import Mmorpg.SaveBarrier.NeverLost
import Mmorpg.Inbox.Reconcile
import Mmorpg.Inbox.ExactlyOnce
import Mmorpg.Team.Store
import Mmorpg.IdSegment.System
import Mmorpg.Battle.ResultCommit
import Mmorpg.Battle.ClassSkill
import Mmorpg.Bags.Eviction
import Mmorpg.Bags.Marshal
import Mmorpg.Mail.Grants
import Mmorpg.Match.Scope
import Mmorpg.Commerce.Refund
import Mmorpg.Commerce.Bids
import Mmorpg.Snowflake.Atomic
