import DeniableHandshake.Proofs.Arithmetic.EllipticPrimality
import DeniableHandshake.Proofs.Arithmetic.Primality
import DeniableHandshake.Proofs.Modp3072.Generator
import Mathlib.Tactic.NormNum.Prime

/-!
# The prime is safe

The order of the subgroup is prime, by a chain of certificates that climbs from a number of eleven
digits, and so is the modulus, which is twice the order and one more. The generator has no smaller
order.
-/
namespace DeniableHandshake.Modp3072

open EllipticCertificate Residue

/-- A number in words of 320 bits, most significant first. -/
def ofWords (words : List Nat) : Nat := words.foldl (fun n w => (n <<< 320) + w) 0

def firstCertificate : Certificate := ⟨21481370993, 3, [2, 2, 2, 2, 359, 3739793]⟩

def firstStage : List EllipticCertificate := [
  ⟨3246224084, 3, -0x2D5DA0FBE, 0x1D55A83768B48997A⟩,
  ⟨2449861658809487104, 3, -0x14F4ED02E652B21AE, 0x1066A36F6A25A187ECAC08A1960EEEA1⟩,
  ⟨5412563676261649910663573447959853836, 4, -0x238180769AD4B480EE1AE72CC78CF9EA, ofWords [
    0xDE4E6284311E8D885DBB59C4D78B37C6FAA1B56454C8DF14F31B9B5484A742]⟩,
  ⟨51738612347534717093402025693180, 3, -0x408C0BD1B376343552A7736A17559335681590D38F906, ofWords [
    0x43FDAE1F3,
    0x6EB8812070A702BCCA433F4A90ADD6543BEC81D54C33E7835C25B4F2A2B8B41577A25441E840E213]⟩,
  ⟨96683962633661221044386769812310819782, 2, -ofWords [
    0x24AD7FCE5FC42A5997F42854A89E0E895A192FB1EF7309F38A2DF830B4EAE], ofWords [
    0x1564D94AAB3781A81C1EA67024D957E54DC4C1BE3,
    0x2B7301876EEAF8904F3C272860102C99F3A207C1361E94743ECF0054EA7FE8F0DF790060367584BC]⟩,
  ⟨23556031871758154650625590765124, 4, ofWords [
    0xE99568CFF2741E2A95D67AD44CB21B27CBD8F9CA6D64C5A5B3709BFA799CCC85B2213B3C0], ofWords [
    0x15F1659F34035E870A811F6DEC332A5C7155B1C997D110EAC6DFD4B421C88521387,
    0xB50B3429553BEC5F2E9C1C29160A837C45D71D692E494D024ED7C301E6AD8F7AA138A14269D7E4FE]⟩,
  ⟨292324903564492723289179237331356, 2, -ofWords [
    0x8A39A81,
    0xC0FAE97C9A3511F39F83FC961600AED1EB51AEF1849DC6FC30B489F9D0CD66BA57A1E6D0BB142F62], ofWords [
    0x1309016D381B1D,
    0xB06192C9560A18B545591E5BC1167653725C6190F640B5D83D72C35DB07C0B29BA642C38D7DAF546,
    0x59061C0F85637EFD89249C569D9651FACDC749C87A9FEF48D3B8773A750540441070A2789C60F35F]⟩,
  ⟨2407185091414926240851937082, 2, ofWords [
    0x11D4B335055BC27522F,
    0xCE081409C31EFD6017DC52F4ADCA65316AD0037CFBD3A365F189718AEFAFB7AC2ACCB93963109B6C], ofWords [
    0xACB70AAC650A87026C337AB718D38D36BBE1,
    0xACC39700A2477473D9CEDAA739D7459CA7FA1ED040927411363CB87CDD4C2C106B806089C9E92702,
    0x5DF56E6367A3BA2FA34487F78EC34CE37CE2B946AF976BC3B528FBBAA23E18D862CD14398E89120F]⟩,
  ⟨20358063154365262743898, 2, ofWords [
    0x2A42F2DAF238BB029514E4F181C8,
    0xF52D5C58CD7BB25AD0E84A31FA656840BCD525C22C037F2DC637620B2AE56BF3CD0171C8DF07B01C], ofWords [
    0x170558DBC042EA9F7A177208F442CFCF5983FA2FB4B988473A2DBFA,
    0x00D38C42E1ACC1DD149810E47223E4BF3D36CCB9C3C86D4F2F2B25B66B83BDDE28569D7685B72E20,
    0xAD26487181C91496AB90E9264B1F923A053CF4AC46F7F71690E626B980BA0B8F654FED21160275F5]⟩,
  ⟨112249027548474624198358, 2, ofWords [
    0x5B85358F4588773255715171253B828B8F700,
    0xBC9C65F043F9CB1AC5F0D9E7E3ECDE42CCF166BF5607783B05D510065C3758A67C328BCA40BED9E8], ofWords [
    0x2B8F47E516E7AF3B5A30B56F3867DE0C10124AF7AA4A97B28A6C4D0F6486145BB3CE13CFCB,
    0x035B4607582A3A537B61279449725465FD2587F1275791E10BD05C05DC6C254F30F625897FE9D00A,
    0x8C9ED06BBBD435EBBF5E45252367932DA54E791214CB78976BD809B02BF14BF40E1FC3B6C933786A]⟩,
  ⟨403046649721337689054732652820, 2, -ofWords [
    0x4F3CD45166370F42FF48C3590DED5EB7D56CD2094036A8666,
    0xA3105B18B619617E16796493AD61D6AB40DB6480FD48A34E320990A499C84FF58C861E83F7075F88], ofWords [
    0x9425C9604E9DB7F311,
    0xA6CD19ACA8378FD6ED62C6EAED2436580766A6ACBC67684995D16DD5C05B51DC1E540B1AC043D715,
    0xB68AFBE117D3EB51576AD85754D0854DAC1A26C1A6AE98CDB15087A245ECD1E1397A47D09D728CE7,
    0xD7262CF9E8386F9DAA1B2331651FF593B7A9B1A6CDE41BA34350C4BFF06DBBAF6EEF63CE28EAF40F]⟩,
  ⟨1474931034082549451740, 3, ofWords [
    0xDFCD771A125C7D0462425DFCAAC2FA1FE422F1B067DDC8C4171D7620A4,
    0x2ED543F2A4F412DF008CBF5AF24838E8283D68B359E63F5E22A523F242C087DBC96B6D301C27ED86], ofWords [
    0x2916F2CC67AD644D51E2461AF3FA73B148D6,
    0x294B8F58583982937B20F75B0FBC493D72B785A96BCC7CA77472C905B86C44AF23F22DFB95192EBB,
    0xD190C0E9A57023A5AE43449C81D97157B61A645B23CF16D46011264690A624119754DE14F63B16A5,
    0x3B58EF68F088E9BB6B0F75803ED175E292D255AE008BCEAD13E8B0BE8A3B36066E9FBA0A420A4D83]⟩,
  ⟨20999612235207319854107285230830, 3, ofWords [
    0xB1F282020B12BB5C0BA031DECC27EA88E3AA8513B2DF1FA97735AD42AB39689BCF28C8B,
    0x8AE2CDA91F9C3E186566D54E55D7FA5BD5924F947F42CDDB2512AE4BFD2B39AA21E2B835657E4636], ofWords [
    0x496F3E54A8A3650D3FA1AD2113D101432EF1A63ED1F868574B9BD590B5E8F8,
    0x38FB6471A1AB435AE98A63B34FBDA3915444B62BF1A081A5379E4859DF0F2E474B018894ABB64B7D,
    0xF6B24DA7744DF3176086C0ECF5C18675FB90C029921D44C31431B0A7E9C433547A59E38F17BAFB99,
    0xBD58177C2D6DAA52CF5B4C555C76BCA6CC6F156C910ACEF9CB4E0DA7B2B0093075AFC953877EC358]⟩,
  ⟨11067220858723435410350998, 2, -ofWords [
    0x3C,
    0x0D148FD3E3C77741FEB61AE6C932DAF6E1C579572FEC6B524E5AB8E0B5C241AB8539D5E6CB32D85D,
    0x43ABF7D04F32F2D42E5E7D393E8258DAFB88ECC413AFB66AB3614A36AF71B392C402427C5A3DA33E], ofWords [
    0x40E,
    0x11F73BB470A4EA7ACCC53C27CF1D018EFA99465B5663FC6B521247B310050595364F9FF8322D74D3,
    0x2C82CB82FD3923428126C4E9A6CA14CF00531B4B53FDF510BCE6367422E1DB0B0B42A2EC4F990205,
    0x0BBADA1712977D4233BA2C2645CE65A87104031B1ABCD31B595D30DFF3640574D4AD30D2516E7F48,
    0x36E8329F22CBF082D156A112E4F97CA9E10DE39E568407FB149AA4A785815C5D53537BC4AD3B364F]⟩,
  ⟨5572912563827676, 3, -ofWords [
    0x1180E3B2B,
    0x819EAE72B8AA4064EDB6966D06D1861D78BF4BBBE45B1B82916A4C87C502E9B7EB418F90F67066B9,
    0x5D9A65823F94538319B06D9EDAE60B975AB1567CD96A3B6A12F4E96C91ED117FFBE074ADAACA637A], ofWords [
    0x1324E689C569F85,
    0x5E0CEF2458373574A015D5D404DE1861F58304BC14E0C3EEC1C0D173974118859D75E261DE5A7396,
    0x2C0646CD3FBAF2E9D8B3E2FA50A4E5BDE1012468BAA38053BD471D25EA66B5FE3B21D7B53FC9D5F7,
    0xBAA45B89F585B6436B211C8640348F4C8E58300863635DA4F51663A4F202652E599C50A16EF30D15,
    0x48443FE5187FA2B0D9606757CD3C97B8AD661BD52FDD3A469742EED11A0AA5CCD12B83A1F8473CF8]⟩,
  ⟨76924647575451381479492, 2, -ofWords [
    0xA5E51DF127678721F,
    0x1AF38192E084FE6D5CBBF9BC3801F79B84B375E5ABEC8BCF7123F7BD33EFEA037472959B93A4F221,
    0xF09564AB843302FCAF5B4FBDA9ADB61ABFD4F1B3E734A5F700FD91DC224CC3127D748EC58C2F2D98], ofWords [
    0x243004096D3629637A6D2A789415AFD1BD1,
    0xB70316B85E2E0E90D0456A62641F7771CAC81988A417D1DB58B239F3E86B0A6E6B4280DA6BD95A0D,
    0x2D0B83F1A37AE4C0F6CE54E4F49E8F93C206E325CFD7FC23E6A95AB7D122A251DB378A39B1B8C89D,
    0x67F204E1EBF7C8D7981679151F3A5463D8E7D7302C8B1FA13C844C744DD37A9B10821A05B850A414,
    0xD695B5F2059664A560CEF9E4BAC1745E6C64506E399841E15F7DB4C58C33858D992BFB99BAC2D5B3]⟩,
  ⟨1735079000097731792, 2, -ofWords [
    0x5812F12FA9EB27005DCE7F69D,
    0xAC24129BCFC6ABCF6F710D2B208AA7D23E9335F48B6108AF8793DD6F8D2A44DD9CF503D324E0B4DD,
    0x4342663AE23ABF9426DA82931D59DF3B72B4307A490A7E0FD5B91D6248BDFEAF2BD346ABB396DB8C], ofWords [
    0x479F9594F5E35377AB7C5A4E6ED1DF2C84796A46B239E4576C,
    0x35021C9CCACE1A7E36FDADE649F3E5F6D5A50A9ADB409DC3844105997C20CE426A098FF930F39A7D,
    0x85B784AB994CF9F69B6E6DCDC5B14653A1DDA1358162B253315434EA65D38D556CD1B3E1D72164E6,
    0xCAD6DAD530C95AB18F515E6BD1459CDDADCA7B997F5109C07E4AA434D01D794D21DF99D921DD05AD,
    0x7223EEBF5593C65EF1245138976D065130EB7D0A74DB36C9A9853FD41735395DBF7506174B20410A]⟩,
  ⟨3030428849006752173732, 2, -ofWords [
    0xA1BF9367CC7A2B0A13868F50FEEE00E505,
    0xB0999A441680D369B321133BF8A769FECDB8E0EEAFFF0B6122B661452FAF37BF9B0B4D3825EA1D7B,
    0xAEA19A346BC010C0A2983B2FA8F4F83AE50D93859718A8C9B3FD01B80CA7170753DA88A5A46B19B8], ofWords [
    0x478A4CFD98111E88F4222EBBBBF9DBE321E7F528CECF61A5F9E83DF6CD8D30D12B82,
    0x4588ABCCE2A6F49F2FC1ED679DD5F23EB84802680F50FD266208322AA2A8989A1239F24643BB4BFD,
    0x757852F6FBA42E607763F65373DF4074824A61D032008E4042AE22CECE17DCE6486706CF6E8B1E35,
    0xF5B51A58553420D0C67C3C8F9FFBE3FDEDF2F3A22D558EC36532D8B973AE4EEB7C3749BFA607E3CA,
    0x8FD839D88FC982912A2F2C26481625F20F2351B7C49E0BCAEC70146D5B24F4DF60FAF96996639AFD]⟩,
  ⟨5170341645952214408, 2, -ofWords [
    0x73F5B3D797E88D35654208A02F00B25A32785ED33E,
    0xB33DE19FA8BA76BEE18569A37D416979F77DB57862FB299B86C2347502B56A953BB353E6FB9E6145,
    0x04EB296BA2430BF47CA2AB1CB5989041FB83AF663B7BB6346C06F6567EC2BB52C5A6B1DDAA099B24], ofWords [
    0x408,
    0x4FF3900B45CC3B8C882166357E0598A80BD711F0A70C84CB246DA90731DE49789E5CB679B027754D,
    0xC991A5D3B6B21BD41A16ECDBA2D354B15BA3B7C3F953C05CEC971610B75E5C1967A74F4E6B4E1884,
    0x902F89BD963582C31878EC08D6986F6F95C62E3E9425BC31859E6ACA2E3979BAD0DAD7AE92FC7644,
    0xE1E77BCBCE275D637A5B45A58E4D2801449DBE8A8CC21DC1B4484FEE479D8D8CBDCCD778D0FE3253,
    0x244A845D479A9247ECFCF5EB62B6AA5BB8EEF9772BB6EC8416D63C4429D0E650DB40AC8F75EBED46]⟩,
  ⟨19917562630124477805961664, 2, ofWords [
    0x2159BE1D7C30AEBE7066D6373665BA5F6792338E6CCC0ECA1CCA3,
    0xC581354E7B844F3912122CEAF120557219BC38167F7FC566B0CA30AD540A6503DBAE24C3BD57E978,
    0x14EDFEF7A98D730948227C4C1AB3E81DCC17A0973FEBB41378CB8E3CB0A09220AAC28100BD312F9A], ofWords [
    0xBEA0A1EFAC29C1B928F2C9E6,
    0x93BBB1CAD5FB6966168D32FE2E8EAD118F4B41AC0862C2E750A4CEEE515633C7FB1A8C0C6B09D20B,
    0x7EC43B72F65A1F677727B850E92CAE55D1B343B402750B5AE1219C3501D183F7C9E271D3176D8736,
    0x08A451D687396F44D14C6A0EB3069F006D5A89E56D0E440EEFB1E2C74CB24F1B91717B34D47DED89,
    0x96D6BDF49B66EE4D17DFEA9AE97DE225E081D829263018D896810F77F40A671B3A2F00D26492E30C,
    0x572F35FA850B5F909D1F697BBF67BCFF7123177A5EFEC245042AB364C45CCBBCA438242A66B84933]⟩]

def secondStage : List EllipticCertificate := [
  ⟨593541803608662317857831339418, 3, -ofWords [
    0x1C296C20B27AE1A49B6D406F18D62FE92FABAAE9F9229D59AD30403B2A4E87A98,
    0xCEA585E856BEE40D1E6506137A5A16244A4192F27BD9820BAE19D566D0B8BD40B89C228DA1A75308,
    0xEBDCDB27A15CA87A46AE651CD5A15ADD5EF07C36FB203E0CA160C77050CCF54748D6795F031E9760], ofWords [
    0x4C1FB382682DE154A7BBBE343FA34FDCF1B8DD3730A9C2683,
    0x8F9DDCE5449761966A814F728290BB95BA8635ADB3A79A7EFEAEF6A26CE0349BB8D41C2DF351AA30,
    0x020CFEEBE6BE3A23F04DB988C9320813D0544F9073DC9CC6BE1ADD1ABAFA39953239439BF874101A,
    0x47FADA007CD85B7EB4D6849BBE71BAEBB83FAF57605C5957C6FB5E14876A4E6FABFB7D99EDB0DFC6,
    0xE3A698B85EE529EBC4D1EFB0608813AA696007AA9EBC5D5ED99D1CD2B9CF9DE0C6420E076FD67DC9,
    0xD1B975C2569685920BA03647E89C3DB4C36394BF53BCDDBD8ACC82D46AA26E84427CEE6BC99A75C2]⟩,
  ⟨52002631655010188624, 2, -ofWords [
    0x267ABEC72BB2028F664204274149B57E44613DA7746223AD329E64A3725872BE7C857DFC,
    0xCCEDA94A1527323CF5AA9D5D1AD060B70A12FD49EDE02361BFACBA4ACCEEFC6412D20BBC8134EB19,
    0x2697CC0EED21858C260238B5D1EE4363D152F9ACCD132CD7AE055F1FD7E2D563A72FC86DE65CEA32], ofWords [
    0xDB8FA04894BB8A9651329150F13FC0342F2BD6F6CE9EB61E436C219EE503BC51B,
    0xDFFA02938A6D0D4F87BDAFD243628355FDB46D60F2896EE39FE3E1C5F3D311BB965A5171DE3ABF30,
    0x9A7FFEA2D8D2DA25A34B675607DDCC06E237085D1D89B259C1392936432719AC0E840972A39ED142,
    0xCD5D2DE84A01E1018DC63C3A27B6BB6053815AB1D1192E87C30023DDE9BAA0D51A88D98490AF3B85,
    0xC4FA9DD4A75F58B5E28CBB2FAC358A9684875B7D5BB62D9A7017353B11A6BA114FD52D1F8DBCDD25,
    0xBEACAD05CEAB28B795C03C0B92BFEA5B8D4CAEBC3FAD3F37A7EB7089BE93C60F2AC0D94633A51561]⟩,
  ⟨266650098909690969432, 2, -ofWords [
    0x2C,
    0x223AB3D2631D873FE9FB2CB4C49F69F06A09517936A3C9310EB91E86399F7EF9E38C9D73952EA01F,
    0x627C673BBD5FA3B5B0E9AAF8A39AA2029A65FE381B5E1D3A0D236E8B21DD02F23FA2013CA7AD9CE2,
    0x076A46973E35F3F8FE049764326E63753545B83483D8A197A36F29F87F81EC67BA6DD497BDC32804], ofWords [
    0x136,
    0x9C3151C352FAF9905E5E1B44D43EDD2E280BEFDBFA2AA04D9362BCD5EE3EFF5AF2C0BA5344889E70,
    0xDB2603D3BBB7880A06B7396CE97DB492CA2F8904CCA9986F71FBA1A4BDA66D54C18E1C082414105F,
    0x1BC88D8F40E05360973D278F9DD62DF9E2AE87D9B06C0592B62746264D5E3233DA15D1CB31C4161B,
    0xF971C635023FEB3CD612F0ACF05DF398FFCC1C2BD775A2A94979C79189D5F71682BF5A91F0175CEF,
    0x9CF4680BB992C61CA3ADEB1409746D945434065F69BC7DF60188CCE22E1F28A2B63968207509F3AC,
    0x9DFB0DBD0BF55940D9C699E654C48F6A1BDDEDCE2F452B1A27FAB981507AE7C9292CFA64909D0E40]⟩,
  ⟨10343770198377506, 3, -ofWords [
    0xFF842782,
    0x325E8CD51E7C07EC6D4EFF01CCFB5EF1FFCBBE308B5A4A91D17803F64657C36163057A5431415109,
    0xEF5D56D8963177B15728509264B81078636941AF4FA7BFE4AE12CC82C3705357EBBECEE800076BC4,
    0x6A33827BFE666C61810DF1E467DB84061139EA13A6B0F5564787ACFA6447FBD0B760EE398980D7D8], ofWords [
    0x4D006344776EA67,
    0xBC81B713BB8F2D63397A3A458F7361A629940EE2D5D22983CBCBB0905865660DD6B74455DFFA36B6,
    0x6EB841AA12FC20780F8D15DF06F1775C911D794A4FF465F64F9A446A2E8F172074A9F74994B594A9,
    0xB481E59EF7A153EE266EEB67EAC2ACD8B2562F518EFA0AFF15D77C0CA1953C79F96B2D8ADFDEBAC8,
    0x1D3CA9733FF2664F93FB173DF4F03823748EEA045ABDE6EB74A6146DE014925DA3A12BD6550481AE,
    0xDE4B719ED905FFA4D251DB0CEE8FE5F55F0296BF5C79AD1CB85ECDF32B9574C294665B0C865A76F8,
    0x24192645D4C25D0C457EE5360C07278A481D51D44CFA19092156EB05D0DC48CB2FEC6565F5F39B93]⟩,
  ⟨2956779677388641729500, 2, -ofWords [
    0xE3887B2FA9EB2EF1,
    0x8BD80D25E769F782FDB2233C3374D1BDEB3BB415C5560B89A59130DA50A098B45583C9C698CBEFA6,
    0xD7A73AA2FEF8528F38890D585591E58A65665D46C8630C47623D24391B9B4351D489D9DEEA7495B6,
    0x914F3720ACC559F6ADC3B0545B1D3E95BD56F5E6DCCD664330B4B3EC58C2C343BA3B538E0F857B6E], ofWords [
    0x28433700F71D6448D7CFCE4C70029EF1C3,
    0x53A987164FE0F9A2423010364CF0C21E099E8A8411351DAB9AABD49CE459DCAA720298D738FEFD5B,
    0xA1A8A8E5342C38DE09604F2AA9682C562F9202BE6F04F90FE0FFD3F0A50DE985C138573CDED5F0C6,
    0x634E6C9B5068EC7B1E6E7214F042A97B96DDB9AE80306AF3BFA42658B5B2318D4995F66BD12A18B2,
    0xEDD2AE3327C2C85010381006BE73F34E8858B0D4A470AE4AAD2FB7C97C1A976899A8E99C183559BB,
    0xDED71B9B44C8FC479606A26220649E31B397A6C6B7D1BB2DDCBCB276132270F9A786A5CDED0A7674,
    0xCFBB699FA9F8B12B3E79FCFE91DF0D9E80E66D7FC65A47C730E7064939FAB7244A42E534E6B8F25B]⟩,
  ⟨81224122969172957412604579572460227632, 2, -ofWords [
    0x1DDF3981B2A3E8A2990C96EAB8DBCB901,
    0xFE49C88403C70320585DAAA0B03EF6DC8D7B35CC1408BBA6FC22B4CDAC78856F2C07F29BFCA57A06,
    0x0ACE589ECB49D4C43ED87778EDB2312167C92EA12A474FAFC430BF6009BDCC2F22446ACAD294E85B,
    0x10DAD7D09ECA8F831457D80D8B78800BE3B20EDB7E72264A4AACD2C657013F2162AB265C678224DA], ofWords [
    0x7BE27AD0D343C116DF49935B4D53E5D680BCD3C91AE2B2FBF32AD29D5A8953A1C,
    0x352ACADF04F8C37482D7C949C23BA2093FB62004E0CBE378FA3C0FD55AFE5F5716D20765F7FF7BCD,
    0xBC52FBD672CF912EC73F32E1E7B80D1732886D4DE9B25B6B379939C5F73FEFCE7A296AC6F86842C4,
    0xB8551EC6CC7240022A9586DF8C6C68D9664BAEB33E5FBED701D6799E0CF5ADCE74C30BE03454F0AF,
    0x3C23949364B2F7B382C28807A2B6AE144DAB99E06C2DF92A8F44EFBBFEF448FB25B564310F5C4C5F,
    0xF9DCCC98623BC71B6704B320CEB38DB792D47338E177213E1A87B4834D92577AD41B96893A65F899,
    0xC467B430BFE06478E365F676BB251E524715FE5AC21961464B055A1B9A43B07A4A3A263105E35AFA]⟩,
  ⟨10363932606688656043434836139376906, 2, ofWords [
    0x3BDE57C8285B58C11F691858E025A23B73D25DDE294BA2C,
    0x518041FBC70A0D2FC3B6490CD216B5BBB3D5520243376865E615911EF3F435FFC5BDFF36CC45127D,
    0xD0DA85ADBD1B21B1D08F723DCA4BE458C2D98D11DACA7CCD08853163A1D9552D1C0C2B44030F0E9F,
    0x887E6C96ACF0E9434A3F1EDBF1CA7FFEF369FDB49E2B9182DF0A6718084A0D0149D432286D579916], ofWords [
    0xFA88C8B07AC37,
    0x3D1F7F15915CA1FA95B4A1EBD7C64B3319E19CBB714698A75B0C48D7D8EF6E9AAD95B6FAB2BD96F7,
    0x54C2D3E23A20AD7A12F1E7321BF6946036E745DDDA0A7B35572680B432F96C1541F96A7FA014A106,
    0xCCAEBAC741397BABAFEC0B3BED3C96BC64F4330DC359CD57D6CCEC8F1302831D861D36F6882AC897,
    0x2A3465327D3F791CC96CB36F3B55B0BB7FDEEC140429F618A9F67A363EBE144B347C2EA33DCD78D0,
    0x71A126F2B3428DAF854D9A31528E87C96C9570A7D6B5CB0E6D99F1333545DEC7A836695358544B77,
    0x718CA11B8D4936DD4C3B410FFADF2CDEB8A4FAB0D9F1BED5F9AE466628BFBBE869DFE8C0FDA9170C,
    0xA8EE81064EAB8B630502CDA4942E4D9AC66AA6E38395E4C850563269EC6E8F1D0660C84FA88C2F61]⟩,
  ⟨413189498358769630846103488, 3, -ofWords [
    0x4A203ED028496578A1DB9CA52A86CAE47E98097AC72A1C1CF521439463,
    0xF19273930B998EE9726AAB7BF865F00EF46C9DA8AE926F4217EF9E76F2578081BECAE6719EEC22DC,
    0x638671C90BF062E1F238E5905FC4BE22212847A898AB63B4BABD1988D01AB4D1E7DF152D83032EA1,
    0xBE66B9947CB5DBCE2A166CD207CADB219227CCF4EF0149F1BD4E716A3747C39EA3DE78AF616A424E], ofWords [
    0x5B383108CC313FD5766CE3912DD7B510724,
    0xD4D2BEA21C1583052B8FF9118074D40F937B46EAC4B91D5A09B4CDCFEE4688D8CDFCA394BF1CF5DA,
    0x0DF94B8EDA19026759A11966D79FC573F2DCBF70BE1DBF13FF75C6D002565A6B4628B5EF9CC92AB5,
    0x2AF023F7AEE6812E9F0D4D78E3A7411904974C48D723BF99B3E6DA6F07D210C69BBDAD56CBD6327C,
    0x619569A4740964EC0717D100D26FB069C0B0BA3C331D40F13E14283C4008EF8B49EB929CC58E8353,
    0xED8F126E862A7244F1CC350E341D3E6E2254683023B6612EBF880AA44D24D540CD4347E04DFF7C07,
    0xE2490A853851CCC7A2F15611D1231571F18A899BE2B6872EB7CA1AA08C03D435A452E311DA89E270,
    0x284F35AA58B43E8E29A470CA63359587626FC87050E0C63C5921D3E359DED1BA8A4FA8B67B75C258]⟩]

def thirdStage : List EllipticCertificate := [
  ⟨6776552349659624, 2, -ofWords [
    0x8497E1400F3B2CEE6463020E8EC8E029E5712025B45D263C82B2AB78F19D3062,
    0x59E9F59A17A9739B1E9B05540D2C29E21CD13DA78A38059E99137B82F4DE4020D87DB51DB36680C8,
    0x566C1CE1BF3A510E7478834538E167B5A3396A4F1E1A7099993B33C99E02AB8888A60FE0FF7CE673,
    0x0CE25D5C3EAE798DFB5E3AC63B93482E9473E2838FD7098122458D8BDCC025D0CD603F0AA319EFC4], ofWords [
    0x28448A4969AE89B25B87ABBA80DEC7A01C7E3E89DC439CF78,
    0x41DDC3AD82A4883D50DCDCDDD1312AEFCCB833389226D8D0EAF1BF1CF0868919F3A999A9FF6F582A,
    0x0CA9B4307D0091C77528E4605BD80C3AB8FCD48C730272D7E986FF0657E75CF4406B083A09B2562D,
    0xF8D36482A94B42052D9C11D1C02BB03F5996F813A9F60EF20B43B66B33F29FE9E812B4469ED0FB53,
    0xA52715CDD4651F9B2E39D8756454DC9C46E5EE6997AE3CCD0A86BF1A193B5EC02D5ACF8A372200B6,
    0xCD81277B61D04CA7E5EACF196904AE3ABEAB53AF84F436DF9422E1973B7DED5D0704ED468A39EB65,
    0xF5B64FD504EE6B62133A82755C104AF77A33CD31849A0EA1DA648D780486D6AAEBBE7F6D88FF9CB4,
    0x84C12635D66471222EE3025B4872441EDE6DAD99B156E49DF3EE84FCD510480C4EF955B5E1BD3E3B]⟩,
  ⟨4653601279346550644, 2, ofWords [
    0x153BD16E25C48421A7B1793E0A426632E1959ED96696ED9180ADC4AE7970144A051DE49DF,
    0x4A87F2E233A6F4FD7FE66316F612B16F261200C95E8A99A7DC95CF9F41234042E44E1DC8D17F5262,
    0x05483E873FFB86DC2811C30CF1889A4A7857E5B1525BEEC03997A6A652A3E1093CC97D12229080A4,
    0x7CDD2571C656F8DB8297776B163911D38C56FC89D9FC5FCC254EED711076701717116D2B42383FA2], ofWords [
    0x38A89CDC2A014A6356F4BADE950719BE1833B8E393B364E7C0918F6D79B9541A,
    0x0D79B6B79C53AFDC72BDD76CA16D081ECD5A2E1D0A45EFBF4C79AC9E27253C07C1FB9FD204C3CB47,
    0xCAC41D87641BF6FDCBD427D4E52BF67E9EDC8CCBAAF26A6B13B4CB08F335F8150D851695F24535E2,
    0x9C02215D2E3B10C39363E5502F0C01FE306191492EF318706A220309F4D2BA95BFA8CA16359DAD31,
    0xE84081C6A5C1C81AA94691295E7CA83181B5BA1FADFB09444BA49EFC0A326582138F46DBE79D7C44,
    0xC21D1808719EDEFC20FF2425F5243E367D70BB9E757937B4711493907CB37C19B4582D0986597A74,
    0xEC9465C7D042692D27C3629647A2943CC8706287BC43AC7EBF0007256A732CADC59980D39027A041,
    0xF0AC3AD9DCA83A12D984FF76CB9EB4197874E22772AB7AB26051CE8A5B03C4F5E6AF45B21F147002]⟩,
  ⟨131504158278672673626, 3, ofWords [
    0x3,
    0x2DBC8FB9D3221341243432E947304985AFA72E07903F300B37594AF7F9AC56E895BA35F6F7C81DB6,
    0x1DDCD118955446948CC7506A3103098DD40C8FE95D7CED7A170C27391574554B277F250ECFCC49D6,
    0x83502E7C6245733A52503C5C8A922B8C6DEB63DB525CA2C7C8E9091375E1519DA7AA6EE716DA3783,
    0x5B80002CE826D0C69DF9145E6E02CB3EC22FB339F5D3F4AABB7D1701BA7E656B81454FBA62BBA5EE], ofWords [
    0x4,
    0x2D9AC208B80139CED7A8EB0AE6DCEACD72447CD9756DEB505EC40006BDAE329C509CA414D741025B,
    0xFB1F9703346CE55ED5DB19BC0021ACA5AD3663254D45ED0FCD1FB40E7F4BCA45215770713C2312CC,
    0x620905339884DB3533D0A7B67EB829EB5605C293FF3258556B313E1F99A65643AB2F3BD659B58F8A,
    0x357347C9C1AAF0BC95B292BE238EA52D864373FD36BAD546CDA6C44936C7459BF75C04A8534F9D5C,
    0x9FF331482439A8803FBCEAA8DA444FC2173ADBF15376F071A999DADC6464686F8FFB0FDFF6D10F38,
    0xB65BB9314FAD4C2E7EC8D095A62534BA603EE896C02F58F5554918876A7356AEB39E1628CBDD20F2,
    0xB695D2EA1BB795CDD60E6186353695E5ACDAACEF5FF6181F5A8C7376B8D69C6F9165151F6F1313C6,
    0xAB1BD9F45512C93C48BBFCEEAD56D0D6014F5EF16A85117DBD8AAE6508F092F2831590ECCD2B6867]⟩,
  ⟨179159161611575379131923824, 4, ofWords [
    0x31178B6EABB0,
    0xB67F53138EC09AA8C18E857CF513228B6AE907379991E5C82676ADB02285D8888618394C430ED921,
    0xDB89BFFB06CDCAC9828A1B6507A63CD0790B3248C348A7497B6C544ABC89623DFD05CCB09A194FBB,
    0x73263E6F35B88F9F8BE03905A10B24D8CC737393D6FB8D56763BCA368E05219579F850E775AD7530,
    0xEB9BE33AD539348517163F6DCC03549325CB3DE37E3167EF379C330579FE480958A01E6551A78076], ofWords [
    0x12B874D65919E612A1244CF,
    0x3B4942D157E9D878570EFA9422CC71F065133F171DEBFD83BB0E3B3DB9C72F32A62289842E7EDB1B,
    0x78A6DE4B372509BD63332D475D083C780A03F99F65E3CAC74E3FB1D8BA72425B2C96787692EB568F,
    0x960E11CBE48AFF02D0C6E2E2228886353BFCC3D41544627D411BBF207F33977DC1B8607AA46408FC,
    0x48D155246CA7149CE954A918DA1E72744E3E4896078628552DF8AEA10DBE104AB0ED385C94AB65C3,
    0xCAE4FBC79C540A78DCF7322146B74A99BBF487AAA3A2F1B5EADF1CC8B18B33F7BEF32CA10FE2064E,
    0x8B5CF568C5F807D2CA0A4D1D0066A1FEDAEA7BF4AD9B41F7B3C7A1D4C619EB61F07B5517EF7F39D0,
    0x665A4A460F4BEFBA9353ED94518F921854DB63D948BE1139E408236FD07C225B2C5D228C69CC0C3B,
    0xB7191EACCEF51C8C00A882D7A76902F8B08B77F3459DE81F429E5B2FA4F5F9EDB5F31F73FE6B328F]⟩,
  ⟨1161584754561792, 3, ofWords [
    0x661197C573E8D2F3A9,
    0xFEF3C578B3D742BDE4CCD69AA4D3BA69ABD33D2C047F050CA20504234DFD51B22B22CADC073DA5FB,
    0x08FE07BF5E34EED24FC1C95D8A4A9AD69A97C79261133C799FA8BA79E8C579398F5C691B71BEB536,
    0xC0AFB7B632672F53AF8375407B99670A3DACBC5258B206B3F2B1315008D4EB46F6FA7E6B4DB162CF,
    0x5F7D1987DAE5D41DF7793879507FA8E0003B448E353AD9E0E5448B09FCDE54296DFC31DD41D0E6A4], ofWords [
    0x443B00FFC26BCB625DD2BA8B074C6E84C60,
    0x00E878103007B831BD8261D054073BCBA2B33B2E27021BFF6CBDEF484BF938AE49B4A20DEDE026AA,
    0x1E8667C0A66491502C840C50E7D6048D4204E2364A35395DB56071E217009B48EEC68A5F223EBCDF,
    0xD9BD3FC4518CFD399D5AD6362A40966DD8AEE5D5BF02F2ECFB4571753D9D5BD1EA21FF79C9DCF002,
    0x9169E0CE19EC5F6692A654A715060FF303AA07E5A33C866DD875A0C8C6311A0B94DE4383074639B1,
    0xF37E308FEBC2ABBE0F10AB9252869A31CE7D6C6070B777DB4D339FC2D286C9C1269964D1744D4178,
    0x3860F87251449C84C8285957CAF2E3349CA2FC7E8BA9A9FF4731A6683BBD7C43E6F13F7B972435CB,
    0xF380ECE89F11EB1C542DD4CA88A652BD6D3A344C083D3AE9BE41E5FDB508FB1DB60682E0C0315721,
    0x8462947DDE5A11BBFC469268145557ECF3AFC91B587502EA9784A56C1BE5E119AE441F154026891F]⟩]

def fourthStage : List EllipticCertificate := [
  ⟨1275452397910472820, 5, -ofWords [
    0x267B93750581D8FA7096C147E,
    0x68AF1434AA0675F6E7B84649CFEA47B62DB3DC51B8F1448C24F59D739785FCCF8CDC160B699E62EF,
    0x61F336C7B1D7A03CAE4C014A23741D57F933944BC2DC06EF99C699A9A14E37A43ABFDFDC49D83193,
    0xC270A4B39DA015858140517B3946977CE2C149B6B671536CC37C41E11265A258142523382C5EE062,
    0x9882DB6ACF2CC6873B45682CA6B3D6544D1D383F01EF80B2A3E15AC2684DC9308DA12CEFB2556AEE], ofWords [
    0x16776D3542144386B12C7F0A68282278E198F1357EDD56D2E8,
    0xBABAAED87A89F22574C15CCE2FC31165D4C3ADDC4B30A20AB70268C7BC398EAC3D4BC3EB8CA82F97,
    0x1ED5CC4E7A57C1C05D1E473C07C63BF440916F7043633B352D916899DCB7487A413A067EF1E2E225,
    0xCB63A48B6A1D3E918853A027C2733731AC631020629C977C997E0573185970D8CC55E2CFC259D94F,
    0xEEBC1CDD1CB15F8D2B4C1C54E3025EE778ECAC16A94E3A6B147BB5D82A82079253C4116D0D0B013F,
    0x04FA612FB64615CA09CEF458109CEE1B3CDC67FAB58CFC4FA898809ACDD531025CFAC430D149A78A,
    0xB4CB6756D5F0F8898420F570EF52C65126003255C064287F6A373558DBBF0D946717EC2F2888F244,
    0x8495B4D6C2E4B94A543FEA092E53BE415FD11BF553F6B66AAEC26069B3F57C3FEF86AE123E10522D,
    0x143A1F051896A8051E8E2EE1CBD70AC510E2DD430FB914D1C9088E88918F981EE016D56C0BFF113A]⟩,
  ⟨24862361699816148961027758820, 2, -ofWords [
    0x8659A2023D5FEC2A00C37759943C2E0BA3D79,
    0x5532E4ACC4C716B498B99F9EEAEFF894FA2A3E04A34E31E20ED9A344964C2596651CE116CF8530BD,
    0x897AE8D7D9B1B818BA88804B9B1DDDDE48E6CDC1F9029F10EF5E1C481A77E6B5BC9D0A15A70C9319,
    0xF2268327B830049D9E65CF455C31FB0B9671FAB5A572FD4E6E981E67FF6F8948F48504FA282EC619,
    0xE4703D3E78316119856B174848E8E14D3B9FE21B6BA7D9BD173D7D88C20CB5B1D8212619F8DA089C], ofWords [
    0x5C4E0CA532E46A54B145C029157F34A98964425CCDCB35F17067D58F011DE1453B297A78B,
    0xBDFBF5EF83828695D4C81034CD77E73571D8B97F7746B70071466EE9A29B3F0FBFA82D9DC8A6044B,
    0x6761ED35BA6806F66B7A31CB6B67180B3E9A18488ABE7D7359A896F9EE791BAF7225A8A9FF695D73,
    0x4F12DF8F69C2E4380828E0E4A78C28234D2E9E2A4F7D00DF38ADDEDF81F5D88786552B7FDC40278B,
    0xFCD38A39AF6E7D21973A6C52EC965E8E60C42403290D47C696E4CECE4B90B5CA71E2A66469AB5756,
    0x772B90452A81C8C1B9ABDF6DBAAB47D138AF74A7C1B627B542DBC3C4413902E2DD1D477AFAAC4A98,
    0x17DBA825482D03CC57349B6FE416D10948E51EC26F0709C39222F9D8F5487747FD7DC045051CDED8,
    0xD3FB6A7FFD21839C9A5FFF72BA0420204830E0293BB26ADF36745128A9610A8830F29DA37E47CB58,
    0xC98293B78F6E1C6631328629444497517751B91CDC54DAE9A189CA5724C9EE4E1F0888043E6942A9]⟩,
  ⟨200260848252150288021672, 2, ofWords [
    0x3E86ADDDC0A9EF5D309D6F44231050CBB03D633FB94BF4,
    0xA0245E1F507BA43E0408018E102D7F2292E246B560FCA57258F3948CDE865E8498C7EF2B8FCDB84F,
    0xC1753E15C9595FCCF09F5EA03E4E67D6B6B02DA4FD8DCDD780673A2BB4D48A9C59B7445E00AC160C,
    0xB194A35BD9404557A140A5852B7FA0BEC548A3222453DD10FE8834F1B6AA073E17395A9199DB4F23,
    0xAB6B83AEB9B88EFBE55B04B2D32A4FA99AE81A00B7D994A9186BF3B6CAA239947184BA37C58C9670], ofWords [
    0x1AF2B657C275A,
    0x3AF8E52AABC8F8EC5E767C06E5BC942A49CA68186FA671E71A4A74B91EC37E93DE3F5ECCE986B239,
    0x1697B3D76268520ADD28FFCA92278A8D7C942CC21B56B857BA7FECA3F1072BB8B8EE62ADF60A283A,
    0x3F2C43FB63205E03BDEFEE241F79A497049A28A033884F333BD79D08DD67182EA5D451B33DD5EB46,
    0xE345902BB0A61F579714A862DC4B1595915E614020C6C16B76122EFD58173DF0DDC012E3B8498F0B,
    0x156BC19097877815DAC0432B707B7DECEA0B33D825A5D2B4CEA2703BDD55C3BF6376B0B585BC307F,
    0xC1A2643EA18363A29EB5CCF563BC61369A61F2304A4C4F3E981F0D741C2FD80B7FD4CE5D9CFDA142,
    0xC2DBC57198039787D8316A88D07A0C0CDD347A0EE1E7389413638071C4FAC5772C6CFF83AE1F22E0,
    0xDE6B5A64AC4FDE4DE1A45458F41A1751884C40303AF298703503E909862B510AEB17DF1409F7C052,
    0xEB8CBC4C097BE1456603DF64A106E1A27D6036EB1A13A2774FC639FFB5CAB49FA037CAE8B7A8DD60]⟩,
  ⟨1813677042296646098790716800, 5, ofWords [
    0x21906487F119F1288F408FBF006B9495681CE3234C19A934AC2AEE8AFE,
    0x65199362FA3C615DC4DA7C1AABF3921FA96EEB6A7F7D13509072C9F6ACE3F2C6D0BABFF04E9A5456,
    0x025237E3D5A928C0F20B88530303237019D2D2C0983AF88368EF7A11E1EE7A396ECC6A92AE0EF08F,
    0x6DDC476887E02D359FD720FE9071F324ED284B95DC1EFA301F0A99B817C864C5CA51EDE0BC320531,
    0x5B60F58423FC3B60C6D698F63761035B192D86CA6DAEA031640585737DDE0B03E942914C3CD50DD0], ofWords [
    0xCCFB24D5767218AF3564093E0D45EF841FA,
    0x776AB2F22BB94C03A0B53A44388B45CB2107556409437C628C62668EE779A4317A9B6F1F9E682DF2,
    0x61BFEA22B15BD08F728292AE218455933E1A8ECFE5140FB86A5926DEB9DB8DA8A30DC76669917987,
    0xB47E109EBAAACCDD604F0CD0A0362B407B4AF5FBAF9C61EBA964AEB07359A3C522913DAF3C468195,
    0xE841D41B2DD7CD3B440B14F32B48A53A87634398879F20209645BC01C4AC636A32BE85609479435B,
    0x8385F0137D80D229EC582B80A9AB926DC065C00D62EF1A251C2A508499CCB31EF5ABED67B807120C,
    0xD14DBBB6E65D14471302EAC13ACC52C2881D2C07153A4D400BBD6332543FCBD56EF67C282CAB7FC7,
    0xBF0833ADB8E485B09914776690198A89940373EC0CE40BC6A0E5630E6A77AF5C7DA5CC2A0BB28EC7,
    0x07487F2A96979E71F78749F9A85F3C94D4BD99DF22FB477A5FA993367AD87C979F4BED37C6FDFCEA,
    0x67DEBA1A3DD0980751F6A691AD3750645D030E169DD785CB738C136E5E1E448A52E809822F540D56]⟩,
  ⟨594014977373384, 2, -ofWords [
    0x141251F19A6916673C56D9B6485719C09C3FD1D6D2786E17D68272AB62C572733,
    0x6D030D02B6005586DEDC52976176E9F6B064143885EEEF59409505350671C0CB133A49E891DE4EF4,
    0x37D2EFE851F2483533BC8ABE0361756A2ED3815D21DC754BD977CEE28A1257DE7EB6B31327E8AB20,
    0x9F0CC00CC275854911DC163EE94B1352943E5A5F8EF8EEB6F4A1A24A9A2708C0C5565FE03F9C3B9B,
    0x03260E113A640779188493E9AF6956F3E45B06CCE563CC361539F162014D8E3EB6ED3CA5FDB6E9B8], ofWords [
    0x14C7A429401FB7B4EC960F0BE6A3F0CB9C10714DA43B069C,
    0x52653860880F4AEB26EDFEED6D7EEC8AE34F781BBB1337E333BFA993A2F911C9D261995C76E94822,
    0x70018CB8D6A9CB615DF763B956DD4153DE590DEFE45318A55A8D1799009A5998AD05040EB6D30F75,
    0x07E7C33D1E6E9DE0E3D7058623117B4AD868D8E405AACE50496884E11C7FC3031B2E6844FD697AC4,
    0xDBD181DA4F37DDBE105B89A105A8E024A354B2338E57A473CF210EDE9FEFBEC585C97F5F65D3C68E,
    0x6CD766C537EE4133419BCFFADD3B4F33872BC21D9E0839E058C84343EE7367EF32EECE495B2A5729,
    0x0369BB2D407132F1D5843A4E9905351B090CBC4A7865708DDBEEA7E78ADB1250D973C40AA4DA3FD4,
    0xF9EA2F6B6B930200ED488390546C056C232B38D0FC90F586E5FB468BFD27385FEB1859CE713F2DFF,
    0x114152489114F92DF2F7C01B394A82D18A171B9DABA7165D34A5A4066435D1651706F05BAAB10458,
    0x58866D804C2741879800576D0473F4157F9DFCE687134A51EAAE020DAAA3ADDBCCE0AC89A5BC1D3B]⟩]

theorem prime_firstCertificate : firstCertificate.number.Prime := by
  have hknown : ∀ q ∈ [2, 359, 3739793], q.Prime := by
    simp only [List.forall_mem_cons]
    norm_num
  exact Certificate.prime_of_check hknown (by decide +kernel)

theorem prime_order : order.Prime := by
  have hfirst : checkAll firstCertificate.number firstStage = true := by decide +kernel
  have hsecond : checkAll (arrival firstCertificate.number firstStage) secondStage = true := by
    decide +kernel
  have hthird : checkAll (arrival (arrival firstCertificate.number firstStage) secondStage)
      thirdStage = true := by decide +kernel
  have hfourth : checkAll (arrival (arrival (arrival firstCertificate.number firstStage)
      secondStage) thirdStage) fourthStage = true := by decide +kernel
  have horder : arrival (arrival (arrival (arrival firstCertificate.number firstStage)
      secondStage) thirdStage) fourthStage = order := by decide +kernel
  rw [← horder]
  apply prime_of_checkAll fourthStage _ hfourth
  apply prime_of_checkAll thirdStage _ hthird
  apply prime_of_checkAll secondStage _ hsecond
  exact prime_of_checkAll firstStage prime_firstCertificate hfirst

instance : Fact order.Prime := ⟨prime_order⟩

theorem orderOf_generator : orderOf (generator : ZMod prime) = order := by
  have hone : (generator : ZMod prime) ≠ 1 := by
    intro hone
    have hcast : generator = 1 :=
      cast_inj_of_lt two_lt_prime one_lt_prime (hone.trans Nat.cast_one.symm)
    cases hcast
  exact orderOf_eq_prime (power_eq_one_iff.mp power_generator_order) hone

theorem prime_eq : prime = 2 * order + 1 := by decide

/-- The opposite of the generator has the order `p - 1`. -/
theorem prime_prime : prime.Prime := by
  have hpower : (generator : ZMod prime) ^ order = 1 := power_eq_one_iff.mp power_generator_order
  have hpred : prime - 1 = order * 2 := by rw [prime_eq, Nat.add_sub_cancel, Nat.mul_comm]
  have hhalf : (-generator : ZMod prime) ^ order = -1 := by rw [odd_order.neg_pow, hpower]
  apply lucas_primality prime (-generator : ZMod prime)
  · rw [hpred, pow_mul, hhalf, neg_one_sq]
  · intro q hq hdvd
    rw [hpred] at hdvd ⊢
    rcases hq.dvd_mul.mp hdvd with hdvd | hdvd
    · obtain rfl := (Nat.prime_dvd_prime_iff_eq hq prime_order).mp hdvd
      rw [Nat.mul_div_cancel_left 2 prime_order.pos, neg_sq]
      intro hone
      have hthree : ((3 : ℕ) : ZMod prime) = 0 := by
        rw [generator] at hone
        push_cast at hone ⊢
        linear_combination hone
      exact cast_ne_zero_of_lt (p := prime) (by decide) (by decide) hthree
    · obtain rfl := (Nat.prime_dvd_prime_iff_eq hq Nat.prime_two).mp hdvd
      rw [Nat.mul_div_cancel order Nat.two_pos, hhalf]
      intro hone
      have htwo : (2 : ZMod prime) = 0 := by linear_combination -hone
      exact two_ne_zero_of_lt two_lt_prime htwo

instance : Fact prime.Prime := ⟨prime_prime⟩

end DeniableHandshake.Modp3072
