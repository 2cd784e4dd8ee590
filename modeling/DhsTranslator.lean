import DhsTranslator.Keyword.Copies
import DhsTranslator.Service.Expiry
import DhsTranslator.Service.Transparency
import DhsTranslator.Service.Honoured
import DhsTranslator.Service.Strings
import DhsTranslator.Service.Order
import DhsTranslator.Cache.History
import DhsTranslator.Service.Format
import DhsTranslator.Service.Lifecycle
import DhsTranslator.Service.Shutdown
import DhsTranslator.Sim.FixedWidth
import DhsTranslator.Sim.KeyTypes
import DhsTranslator.Adapter.Safety
